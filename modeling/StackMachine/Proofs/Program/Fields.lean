import StackMachine.Config.Json
import StackMachine.Program.Json
import StackMachine.Proofs.Json.Records

/-!
Programs and configurations are records: what is read depends on their fields alone.
-/

set_option autoImplicit false

namespace StackMachine

open StackMachine (Json)

theorem Json.orDefault_fill {α : Type} {default : α} {read? : Json → Option α} {f : Json.Field} {v : Json}
    (hdefault : f.default = some v) (hread : read? v = some default) (value : Option Json) :
    Json.orDefault default read? (f.fill value) = Json.orDefault default read? value := by
  cases value with
  | none =>
    rw [Json.Field.fill, hdefault]
    exact hread
  | some value => rfl

namespace Program

/-- The code must be given, and each pool is empty if it is absent. -/
def fields : List Json.Field :=
  [⟨"code", none⟩, ⟨"ints", some (.array [])⟩, ⟨"reals", some (.array [])⟩, ⟨"strings", some (.array [])⟩]

theorem orDefault_pool {α : Type} (item? : Json → Option α) (name : String) (value : Option Json) :
    Json.orDefault .empty (pool? item?) (Json.Field.fill ⟨name, some (.array [])⟩ value)
      = Json.orDefault .empty (pool? item?) value :=
  have hread : pool? item? (.array []) = some .empty := rfl
  Json.orDefault_fill rfl hread value

/-- The program whose fields have the given values. -/
def ofFields? : List (Option Json) → Option Program
  | [some code, ints, reals, strings] => do
    return {
      code := ← code.arrayOf? Json.word?
      ints := ← Json.orDefault .empty (pool? Json.word?) ints
      reals := ← Json.orDefault .empty (pool? Json.float?) reals
      strings := ← Json.orDefault .empty (pool? Json.text?) strings }
  | _ => none

theorem isRecord : Json.IsRecord fields ofFields? ofJson? where
  nodup := by decide
  reads v := rfl
  fill values hlength := by
    match values, hlength with
    | [none, ints, reals, strings], _ => rfl
    | [some code, ints, reals, strings], _ =>
      change ofFields? [some code, _, _, _] = _
      rw [ofFields?, orDefault_pool, orDefault_pool, orDefault_pool, ofFields?]
  required values hlength hnone := by
    match values, hlength with
    | [none, ints, reals, strings], _ => rfl
    | [some code, ints, reals, strings], _ =>
      cases ints <;> cases reals <;> cases strings <;> simp [fields, Json.Field.fill] at hnone

end Program

namespace Config

/-- Limits are 0 and choices are false if they are absent. -/
def fields : List Json.Field :=
  [⟨"max_stack_depth", some (.number "0")⟩, ⟨"max_call_depth", some (.number "0")⟩,
    ⟨"max_instructions", some (.number "0")⟩, ⟨"trace", some (.bool false)⟩,
    ⟨"fatal_type_mismatch", some (.bool false)⟩]

theorem orDefault_limit (name : String) (value : Option Json) :
    Json.orDefault 0 limit? (Json.Field.fill ⟨name, some (.number "0")⟩ value) = Json.orDefault 0 limit? value :=
  have hread : limit? (.number "0") = some 0 := rfl
  Json.orDefault_fill rfl hread value

theorem orDefault_choice (name : String) (value : Option Json) :
    Json.orDefault false Json.bool? (Json.Field.fill ⟨name, some (.bool false)⟩ value)
      = Json.orDefault false Json.bool? value :=
  have hread : Json.bool? (.bool false) = some false := rfl
  Json.orDefault_fill rfl hread value

/-- The configuration whose fields have the given values. -/
def ofFields? : List (Option Json) → Option Config
  | [stack, call, instructions, trace, fatal] => do
    return {
      maxStackDepth := ← Json.orDefault default.maxStackDepth limit? stack
      maxCallDepth := ← Json.orDefault default.maxCallDepth limit? call
      maxInstructions := ← Json.orDefault default.maxInstructions limit? instructions
      trace := ← Json.orDefault default.trace Json.bool? trace
      fatalTypeMismatch := ← Json.orDefault default.fatalTypeMismatch Json.bool? fatal }
  | _ => none

theorem isRecord : Json.IsRecord fields ofFields? ofJson? where
  nodup := by decide
  reads v := rfl
  fill values hlength := by
    match values, hlength with
    | [stack, call, instructions, trace, fatal], _ =>
      change ofFields? [_, _, _, _, _] = _
      simp only [ofFields?, default, orDefault_limit, orDefault_choice]
  required values hlength hnone := by
    match values, hlength with
    | [stack, call, instructions, trace, fatal], _ =>
      cases stack <;> cases call <;> cases instructions <;> cases trace <;> cases fatal
        <;> simp [fields, Json.Field.fill] at hnone

end Config

/-- What is read from the text of an object, in whatever form the object is written, depends on the fields of a
program or of a configuration alone. -/
theorem records_depend_on_fields :
    (∀ (text : String) (members : List (Option String × Json)), Json.read? text = some (.object members) →
        ∃ o : Json.ObjectText, o.text = text ∧ o.tree = members)
      ∧ Json.DependsOnFields Program.fields Program.read? ∧ Json.DependsOnFields Config.fields Config.read? :=
  ⟨fun _ _ => Json.exists_objectText, Program.isRecord.dependsOnFields, Config.isRecord.dependsOnFields⟩

/-- A program and a configuration that are read from several texts: with the members in another order, with one more,
with a default written out, with a line feed between two tokens, and as an array.  With a field given twice or without
the code nothing is read. -/
theorem records_depend_on_fields_rewritten :
    let program : Program := ⟨#[0], ⟨#[7]⟩, .empty, .empty⟩
    let config : Config := { Config.default with maxCallDepth := 3, trace := true }
    (Program.read? "\x7b\"code\":[0],\"ints\":[7]\x7d" = some program
        ∧ Program.read? "\x7b\"ints\":[7],\"note\":\x7b\"code\":1\x7d,\"code\":[0],\n\"reals\":[]\x7d" = some program
        ∧ Program.read? "[[0],[7],[],[]]" = some program
        ∧ Program.read? "\x7b\"code\":[0],\"ints\":[7],\"code\":[0]\x7d" = none
        ∧ Program.read? "\x7b\"ints\":[7]\x7d" = none)
      ∧ Config.read? "\x7b\"max_call_depth\":3,\"trace\":true\x7d" = some config
      ∧ Config.read? "\x7b\"trace\":true,\"max_call_depth\":3,\"max_instructions\":0\x7d" = some config
      ∧ Config.read? "[0,3,0,true,false]" = some config
      ∧ Config.read? "\x7b\"trace\":true,\"max_call_depth\":3,\"trace\":true\x7d" = none := by
  intro program config
  obtain ⟨-, hprogram, hconfig⟩ := records_depend_on_fields
  let object (members : List Json.MemberText) : Json.ObjectText := ⟨"", "", members, "", nofun, nofun, nofun⟩
  refine ⟨?program, ?config⟩
  case program =>
    let empty : Json.ValueText := ⟨"[]", .array [], rfl⟩
    let code : Json.MemberText := ⟨"\"code\"", "code", rfl, "[0]", .array [.number "0"], rfl⟩
    let ints : Json.MemberText := ⟨"\"ints\"", "ints", rfl, "[7]", .array [.number "7"], rfl⟩
    let reals : Json.MemberText := ⟨"\"reals\"", "reals", rfl, empty⟩
    let note : Json.MemberText := ⟨"\"note\"", "note", rfl, "\x7b\"code\":1\x7d", .object [("code", .number "1")], rfl⟩
    have hread : Program.read? "\x7b\"code\":[0],\"ints\":[7]\x7d" = some program := rfl
    have horder : Program.read? (object [ints, code]).text = some program :=
      (hprogram.order (object [code, ints]) _ (.swap ints code [])).trans hread
    have hunknown : Program.read? (object [ints, note, code]).text = some program :=
      (hprogram.unknown (object [ints, code]) [ints] [code] note "note" rfl rfl (by decide)).trans horder
    have hdefault : Program.read? (object [ints, note, code, reals]).text = some program :=
      (hprogram.default (object [ints, note, code]) [ints, note, code] [] reals rfl ⟨"reals", some (.array [])⟩
        (.tail _ (.tail _ (.head _))) rfl rfl (by decide)).trans hunknown
    refine ⟨hread, ?blanks, ?array, ?repeated, ?required⟩
    case blanks =>
      exact hprogram.blanks "\x7b\"ints\":[7],\"note\":\x7b\"code\":1\x7d,\"code\":[0]," "" "\n"
        "\"reals\":[]\x7d" _ _ program rfl rfl rfl (Json.isBlank_iff.2 rfl) hdefault
    case array =>
      refine hprogram.array (object [code, ints]) [code.value, ints.value, empty, empty] program hread ?_
      exact .cons (.inl ⟨code, .head _, rfl, rfl⟩) (.cons (.inl ⟨ints, .tail _ (.head _), rfl, rfl⟩)
        (.cons (.inr ⟨by decide, rfl⟩) (.cons (.inr ⟨by decide, rfl⟩) .nil)))
    case repeated =>
      exact hprogram.repeated (object [code, ints, code]) [] [ints] [] code code rfl _ (.head _) rfl rfl
    case required => exact hprogram.required (object [ints]) _ (.head _) rfl (by decide)
  case config =>
    let zero : Json.ValueText := ⟨"0", .number "0", rfl⟩
    let calls : Json.MemberText := ⟨"\"max_call_depth\"", "max_call_depth", rfl, "3", .number "3", rfl⟩
    let budget : Json.MemberText := ⟨"\"max_instructions\"", "max_instructions", rfl, zero⟩
    let trace : Json.MemberText := ⟨"\"trace\"", "trace", rfl, "true", .bool true, rfl⟩
    have hread : Config.read? "\x7b\"max_call_depth\":3,\"trace\":true\x7d" = some config := rfl
    have horder : Config.read? (object [trace, calls]).text = some config :=
      (hconfig.order (object [calls, trace]) _ (.swap trace calls [])).trans hread
    refine ⟨hread, ?default, ?array, ?repeated⟩
    case default =>
      exact (hconfig.default (object [trace, calls]) [trace, calls] [] budget rfl
        ⟨"max_instructions", some (.number "0")⟩ (.tail _ (.tail _ (.head _))) rfl rfl (by decide)).trans horder
    case array =>
      refine hconfig.array (object [calls, trace])
        [zero, calls.value, zero, trace.value, ⟨"false", .bool false, rfl⟩] config hread ?_
      exact .cons (.inr ⟨by decide, rfl⟩) (.cons (.inl ⟨calls, .head _, rfl, rfl⟩) (.cons (.inr ⟨by decide, rfl⟩)
        (.cons (.inl ⟨trace, .tail _ (.head _), rfl, rfl⟩) (.cons (.inr ⟨by decide, rfl⟩) .nil))))
    case repeated =>
      exact hconfig.repeated (object [trace, calls, trace]) [] [calls] [] trace trace rfl
        ⟨"trace", some (.bool false)⟩ (.tail _ (.tail _ (.tail _ (.head _)))) rfl rfl

end StackMachine
