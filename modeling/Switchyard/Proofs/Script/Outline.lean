import Switchyard.Proofs.Edit.Lists
import Switchyard.Proofs.Graph.Accounting

namespace Switchyard

/-- An outline knows how many blocks there are and which lists the switches have. It knows no
counts. -/
structure Outline where
  size : Nat
  lists : Label → Option (List Label)

namespace Outline

/-- Only a switch has a list. -/
def list (o : Outline) (b : Label) : Except Fault (List Label) :=
  if b < o.size then
    match o.lists b with
    | none => .error (.illegal (.notSwitch b))
    | some targets => .ok targets
  else
    .error (.illegal (.notWired b))

/-- The outline in which the switch has another list. -/
def hold (o : Outline) (b : Label) (targets : List Label) : Outline where
  size := o.size
  lists p := if p = b then some targets else o.lists p

/-- An edit needs a switch, a valid index and a known target, in this order. -/
def apply (o : Outline) (edit : Edit) : Except Fault (List Change × Outline) := do
  let targets ← o.list edit.owner
  edit.action.check o.size targets
  return (edit.action.changes edit.owner targets,
    o.hold edit.owner (edit.action.onTargets targets))

/-- Edits run in order until one fails, and the outline is left as it was before that one. -/
def run (o : Outline) : Script → Except RunFault (List Applied) × Outline
  | [] => (.ok [], o)
  | edit :: rest =>
      match o.apply edit with
      | .error cause => (.error ⟨edit, cause⟩, o)
      | .ok (changes, next) =>
          let (result, last) := next.run rest
          (result.map (⟨edit, changes⟩ :: ·), last)

/-- A list that is put where it is already changes nothing. -/
theorem hold_list {o : Outline} {b : Label} {targets : List Label}
    (found : o.lists b = some targets) : o.hold b targets = o := by
  have same : (fun p => if p = b then some targets else o.lists p) = o.lists := by
    funext p
    split
    · next here => rw [here, found]
    · rfl
  rw [hold, same]

end Outline

namespace Graph

variable {g : Graph} {b : Label} {table : JumpTable} {edit : Edit}

/-- All of a graph but its counts. -/
def outline (g : Graph) : Outline where
  size := g.size
  lists b := (g.table b).toOption.map JumpTable.targets

/-- The outline of a graph has the lists of its tables. -/
theorem list_outline (g : Graph) (b : Label) :
    g.outline.list b = (g.table b).map JumpTable.targets := by
  cases here : g.blocks[b]? with
  | none =>
      have outside : ¬b < g.size := Nat.not_lt.mpr (Array.getElem?_eq_none_iff.mp here)
      simp only [Outline.list, outline, Graph.table, Graph.block, here, outside, ↓reduceIte,
        Except.map]
  | some block =>
      have inside : b < g.size := (Array.getElem?_eq_some_iff.mp here).1
      cases switch : block.table <;>
        simp only [Outline.list, outline, Graph.table, Graph.block, here, switch, inside,
          ↓reduceIte, Except.toOption, Option.map, Except.map]

/-- A table that is put back shows in the outline with its targets alone. -/
theorem outline_put (inside : b < g.size) (s : Observed Predecessors) :
    (g.put b s).outline = g.outline.hold b s.table.targets := by
  have lists : (g.put b s).outline.lists = (g.outline.hold b s.table.targets).lists := by
    funext p
    simp only [outline, Outline.hold]
    split
    · next same =>
      rw [same, table_put_self inside]
      rfl
    · next other => rw [table_put_ne g s other]
  have sizes : (g.put b s).outline.size = g.size := size_put g b s
  rw [Outline.hold] at lists ⊢
  cases built : (g.put b s).outline with
  | mk size held =>
      rw [built] at lists sizes
      cases lists
      cases sizes
      rfl

/-- In a reachable graph the counts agree with each table. -/
theorem Reachable.even (reached : g.Reachable) (found : g.table b = .ok table) :
    Observed.Even b ⟨table, g.predecessors⟩ where
  attached := reached.keeps.sound.owned b table found
  ownerWired := (reached.keeps.sound.wired b).mpr (lt_size_of_table found)
  targetsWired t listed := by
    apply (reached.keeps.sound.wired t).mpr
    exact reached.keeps.sound.closed b t (targets_of_table found ▸ listed)
  counted t := by
    have counted := reached.recorded_eq ⟨b, t⟩
    simp only [recorded, occurrences, targets_of_table found] at counted
    exact counted

/-- An edit that fails on the outline fails on the graph in the same way. -/
theorem apply_refused (reached : g.Reachable) {fault : Fault}
    (refused : g.outline.apply edit = .error fault) :
    ∃ h, edit.apply g = .error fault h ∧ h.outline = g.outline := by
  rw [Edit.apply_eq]
  unfold Outline.apply at refused
  rw [list_outline] at refused
  unfold onTable
  cases found : g.table edit.owner with
  | error missing =>
      simp only [found, Except.map, bind, Except.bind, Except.error.injEq] at refused
      exact ⟨g, by rw [refused], rfl⟩
  | ok table =>
      have even := reached.even found
      simp only [found, Except.map, bind, Except.bind] at refused
      cases checked : edit.action.check g.size table.targets with
      | ok _ => simp [outline, checked, pure, Except.pure] at refused
      | error complaint =>
          simp only [outline, checked, Except.error.injEq] at refused
          obtain ⟨t, ended, kept⟩ :=
            Edit.carryOut_refused even reached.keeps.sound.wired (refused ▸ checked)
          refine ⟨g.put edit.owner t, ?_, ?_⟩
          · simp only [ended]
            rfl
          · rw [outline_put (lt_size_of_table found), kept]
            apply Outline.hold_list
            simp only [outline, found, Except.toOption, Option.map]

/-- An edit that succeeds on the outline succeeds on the graph with the same changes. -/
theorem apply_accepted (reached : g.Reachable) {changes : List Change} {o : Outline}
    (accepted : g.outline.apply edit = .ok (changes, o)) :
    ∃ h, edit.apply g = .ok changes h ∧ h.outline = o := by
  rw [Edit.apply_eq]
  unfold Outline.apply at accepted
  rw [list_outline] at accepted
  unfold onTable
  cases found : g.table edit.owner with
  | error missing => simp [found, Except.map, bind, Except.bind] at accepted
  | ok table =>
      have even := reached.even found
      simp only [found, Except.map, bind, Except.bind] at accepted
      cases checked : edit.action.check g.size table.targets with
      | error complaint => simp [outline, checked] at accepted
      | ok _ =>
          simp only [outline, checked, pure, Except.pure, Except.ok.injEq, Prod.mk.injEq]
            at accepted
          obtain ⟨rfl, rfl⟩ := accepted
          obtain ⟨t, ended, moved⟩ :=
            Edit.carryOut_accepted even reached.keeps.sound.wired checked
          refine ⟨g.put edit.owner t, ?_, ?_⟩
          · simp only [ended]
            rfl
          · rw [outline_put (lt_size_of_table found), moved]
            rfl

end Graph

namespace Script

/-- A script does to a reachable graph what it does to plain lists. It ends in the same way, and it
leaves the same lists. -/
theorem run_refines_outline {g : Graph} (reached : g.Reachable) (script : Script) :
    (Step.outcome script.run g, (Step.after script.run g).outline) = g.outline.run script := by
  induction script generalizing g with
  | nil => rfl
  | cons edit rest ih =>
      have after : (Step.after edit.apply g).Reachable := .request (.edit edit) reached
      cases applied : g.outline.apply edit with
      | error cause =>
          obtain ⟨h, failed, same⟩ := Graph.apply_refused reached applied
          have ran : run (edit :: rest) g = .error ⟨edit, cause⟩ h := run_cons_error failed
          rw [Step.outcome_of_error ran, Step.after_of_error ran, same]
          simp only [Outline.run, applied]
      | ok told =>
          obtain ⟨changes, o⟩ := told
          obtain ⟨h, succeeded, rfl⟩ := Graph.apply_accepted reached applied
          rw [Step.after_of_ok succeeded] at after
          have behind := ih after
          simp only [Outline.run, applied, ← behind]
          simp only [Step.outcome, Step.after, run_cons_ok succeeded]
          cases run rest h <;> rfl

/-- The fourth of five edits names a block that is not there. -/
theorem refused_run_refines_outline :
    let g := Graph.Request.after (.attachSwitch 0 (.ofList [1, 1])) (Graph.ofSize 2)
    let script : Script :=
      [⟨0, .set 1 0⟩, ⟨0, .remove 9⟩, ⟨0, .removeAt 0⟩, ⟨0, .push 5⟩, ⟨0, .clear⟩]
    (g.outline.run script).1 = .error ⟨⟨0, .push 5⟩, .illegal (.notWired 5)⟩ ∧
      (g.outline.run script).2.lists 0 = some [0] ∧
      (Step.outcome script.run g, (Step.after script.run g).outline) = g.outline.run script := by
  refine ⟨by decide, by decide, ?_⟩
  apply run_refines_outline
  exact .request _ (.initial (.ofSize 2))

end Script

end Switchyard
