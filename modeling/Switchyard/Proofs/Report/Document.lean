import Switchyard.Proofs.Json
import Switchyard.Report.Document

namespace Switchyard

open Json

theorem Json.number_injective : Function.Injective number := by
  intro a b same
  exact number.inj same

theorem Json.plain_ofLabel? (b : Option Label) : (ofLabel? b).Plain := by
  cases b with
  | none => exact .null
  | some b => exact .number b

/-- A label that is absent differs from every label. -/
theorem Json.ofLabel?_injective : Function.Injective ofLabel? := by
  intro a b same
  cases a <;> cases b <;> simp_all [ofLabel?]

/-- No keyword has to be escaped. -/
theorem Action.unquoted_keyword (action : Action) : Unquoted action.keyword := by
  cases action <;> simp [Unquoted, keyword]

/-- An edit is a plain document, whichever numbers it has. -/
theorem Edit.plain_toJson (edit : Edit) : edit.toJson.Plain := by
  have keyword := Plain.name edit.action.unquoted_keyword
  apply Plain.record
  · cases edit.action <;> simp [Unquoted, Action.index?, Action.target?]
  · cases action : edit.action <;>
      simp_all [Plain.number, Action.index?, Action.target?]

/-- Edits with the same numbers still differ in their keyword. -/
theorem Edit.toJson_injective : Function.Injective Edit.toJson := by
  intro a b same
  obtain ⟨owner, action⟩ := a
  obtain ⟨other, another⟩ := b
  cases action <;> cases another <;>
    simp_all [Edit.toJson, Action.keyword, Action.index?, Action.target?]

theorem Change.plain_toJson (change : Change) : change.toJson.Plain := by
  apply Plain.record
  · simp [Unquoted]
  · simp [Plain.number, plain_ofLabel?]

/-- A change is read off its three fields. -/
theorem Change.toJson_injective : Function.Injective Change.toJson := by
  intro a b same
  simp only [toJson, record.injEq, List.cons.injEq, Prod.mk.injEq, number.injEq,
    ofLabel?_injective.eq_iff, true_and, and_true] at same
  cases a
  cases b
  simp_all only

theorem Applied.plain_toJson (applied : Applied) : applied.toJson.Plain := by
  apply Plain.record
  · simp [Unquoted]
  · simp [Edit.plain_toJson, plain_list_map Change.plain_toJson]

/-- An edit with its changes is read off its two fields. -/
theorem Applied.toJson_injective : Function.Injective Applied.toJson := by
  intro a b same
  simp only [toJson, record.injEq, List.cons.injEq, Prod.mk.injEq, Edit.toJson_injective.eq_iff,
    list_map_inj Change.toJson_injective, true_and, and_true] at same
  cases a
  cases b
  simp_all only

namespace Report

theorem plain_switchJson (b : Label) (targets : List Label) : (switchJson b targets).Plain := by
  apply Plain.record
  · simp [Unquoted]
  · simp [Plain.number, plain_list_map Plain.number]

/-- A switch is read off its label and its targets. -/
theorem switchJson_injective :
    Function.Injective fun entry : Label × List Label => switchJson entry.1 entry.2 := by
  intro a b same
  simp only [switchJson, record.injEq, List.cons.injEq, Prod.mk.injEq, number.injEq,
    list_map_inj number_injective, true_and, and_true] at same
  exact Prod.ext same.1 same.2

/-- A predecessor and its number of edges. -/
def sourceJson (source : Label × Nat) : Json := .list [.number source.1, .number source.2]

/-- The predecessors of a block are listed one by one. -/
theorem predecessorsJson_eq (b : Label) (sources : List (Label × Nat)) :
    predecessorsJson b sources =
      .record [("block", .number b), ("predecessors", .list (sources.map sourceJson))] := rfl

theorem plain_sourceJson (source : Label × Nat) : (sourceJson source).Plain := by
  apply Plain.list
  simp [Plain.number]

theorem sourceJson_injective : Function.Injective sourceJson := by
  intro a b same
  simp only [sourceJson, list.injEq, List.cons.injEq, number.injEq, and_true] at same
  exact Prod.ext same.1 same.2

theorem plain_predecessorsJson (b : Label) (sources : List (Label × Nat)) :
    (predecessorsJson b sources).Plain := by
  rw [predecessorsJson_eq]
  apply Plain.record
  · simp [Unquoted]
  · simp [Plain.number, plain_list_map plain_sourceJson]

/-- A row of predecessors is read off its label and its pairs. -/
theorem predecessorsJson_injective :
    Function.Injective fun entry : Label × List (Label × Nat) =>
      predecessorsJson entry.1 entry.2 := by
  intro a b same
  simp only [predecessorsJson_eq, record.injEq, List.cons.injEq, Prod.mk.injEq, number.injEq,
    list_map_inj sourceJson_injective, true_and, and_true] at same
  exact Prod.ext same.1 same.2

/-- A report is a plain document. -/
theorem plain_toJson (report : Report) : report.toJson.Plain := by
  apply Plain.record
  · simp [Unquoted]
  · simp [plain_list_map Applied.plain_toJson,
      plain_list_map fun entry : Label × List Label => plain_switchJson entry.1 entry.2,
      plain_list_map fun entry : Label × List (Label × Nat) =>
        plain_predecessorsJson entry.1 entry.2]

/-- A report is read off its three fields. -/
theorem toJson_injective : Function.Injective toJson := by
  intro report other same
  simp only [toJson, record.injEq, List.cons.injEq, Prod.mk.injEq,
    list_map_inj Applied.toJson_injective, list_map_inj switchJson_injective,
    list_map_inj predecessorsJson_injective, true_and, and_true] at same
  cases report
  cases other
  simp_all only

/-- The whole report can be read off the layout of its document. -/
theorem render_toJson_injective :
    Function.Injective fun report : Report => report.toJson.render := by
  intro report other same
  exact toJson_injective (report.plain_toJson.eq_of_render other.plain_toJson same)

end Report

end Switchyard
