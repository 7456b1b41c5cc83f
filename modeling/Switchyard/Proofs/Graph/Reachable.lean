import Switchyard.Graph.Description
import Switchyard.Proofs.Graph.Growth
import Switchyard.Proofs.Reading
import Switchyard.Proofs.Script.Run

namespace Switchyard

namespace Graph

/-- A request to build or to edit a graph. -/
inductive Request where
  | addBlock
  | addSwitch (table : JumpTable)
  | attachSwitch (b : Label) (table : JumpTable)
  /-- The table of one switch is updated. -/
  | demand (b : Label) (asked : Demand)
  | edit (asked : Edit)
  | script (asked : Script)
deriving DecidableEq, Repr

/-- A request leaves a graph, whether it succeeds or fails. -/
def Request.after : Request → Graph → Graph
  | .addBlock => Step.after Graph.addBlock
  | .addSwitch table => Step.after (Graph.addSwitch table)
  | .attachSwitch b table => Step.after (Graph.attachSwitch b table)
  | .demand b asked => Step.after (onTable b (asked.perform Predecessors.observer))
  | .edit asked => Step.after asked.apply
  | .script asked => Step.after asked.run

/-- A graph starts empty, with plain blocks alone, or from a text. -/
inductive Initial : Graph → Prop where
  | empty : Initial empty
  | ofSize (count : Nat) : Initial (ofSize count)
  | read {text : String} {g : Graph} (described : read text = .ok g) : Initial g

/-- From a start every request leads to a graph again, whether it succeeds or fails. -/
inductive Reachable : Graph → Prop where
  | initial {g : Graph} (start : Initial g) : Reachable g
  | request {g : Graph} (request : Request) (reached : Reachable g) : Reachable (request.after g)

/-- The counts may also hear of changes that no table makes. -/
inductive Disturbed : Graph → Prop where
  | initial {g : Graph} (start : Initial g) : Disturbed g
  | request {g : Graph} (request : Request) (reached : Disturbed g) : Disturbed (request.after g)
  | report {g : Graph} (change : Change) (reached : Disturbed g) :
      Disturbed (Step.after (onPredecessors (Predecessors.observer change)) g)

variable {g h : Graph}

/-- Whatever is asked of a table, the graph stays sound and no imbalance moves. -/
theorem Sound.keeps_demand (sound : g.Sound) (b : Label) (demand : Demand) :
    g.Keeps (Step.after (onTable b (demand.perform Predecessors.observer)) g) := by
  rw [demand.perform_eq]
  exact sound.keeps_onTable demand.faithful_plan b

/-- By induction on the edits, a script keeps what each edit keeps. -/
theorem Sound.keeps_script (sound : g.Sound) (script : Script) :
    g.Keeps (Step.after script.run g) := by
  induction script generalizing g with
  | nil => exact Keeps.refl sound
  | cons edit rest ih =>
      have first := sound.keeps_edit edit
      rw [Script.after_run_cons]
      cases applied : edit.apply g with
      | error fault h =>
          rw [Step.after_of_error applied] at first
          exact first
      | ok changes h =>
          rw [Step.after_of_ok applied] at first
          exact first.trans (ih first.sound)

/-- No request can part the counts from the tables. -/
theorem Sound.keeps_request (sound : g.Sound) (request : Request) : g.Keeps (request.after g) := by
  cases request with
  | addBlock => exact sound.keeps_grow
  | addSwitch table => exact sound.keeps_addSwitch table
  | attachSwitch b table => exact sound.keeps_attachSwitch b table
  | demand b demand => exact sound.keeps_demand b demand
  | edit edit => exact sound.keeps_edit edit
  | script script => exact sound.keeps_script script

theorem sound_empty : empty.Sound where
  labelled b block here := by simp [empty] at here
  wired b := by simp [empty, size]
  owned b table there := by simp [empty, Graph.table, Graph.block] at there
  closed b t present := by simp [empty, targets, Graph.table, Graph.block] at present

/-- Nothing is counted and nothing is listed. -/
theorem imbalance_empty (e : Edge) : empty.imbalance e = 0 := by
  simp [empty, imbalance, recorded, occurrences, targets, Graph.table, Graph.block]

/-- Plain blocks are added one by one. -/
theorem keeps_ofSize (count : Nat) : empty.Keeps (ofSize count) := by
  unfold ofSize
  induction count with
  | zero => exact Keeps.refl sound_empty
  | succ count ih => exact ih.trans ih.sound.keeps_grow

/-- A line is accepted when its switch is attached. -/
theorem declare_eq_ok {line : Text.Line} :
    g.declare line = .ok h ↔ ∃ switch, readSwitch line = .ok switch ∧
      attachSwitch switch.1 (.gather switch.2) g = .ok () h := by
  unfold declare
  simp only [Reading.bind_eq_ok]
  apply exists_congr
  intro switch
  rcases attachSwitch switch.1 (.gather switch.2) g with later | ⟨fault, later⟩
  · simp [pure, Except.pure]
  · simp [throw, throwThe, MonadExceptOf.throw]

/-- A text is read as a header and then declaration by declaration. -/
theorem read_eq_ok {text : String} :
    read text = .ok g ↔ ∃ header lines size, Text.significant text = header :: lines ∧
      readHeader header = .ok size ∧ lines.foldlM declare (ofSize size) = .ok g := by
  unfold read
  rcases Text.significant text with _ | ⟨header, lines⟩
  · simp
  · simp [Reading.bind_eq_ok]

/-- A declaration is an attachment. -/
theorem Sound.keeps_declare (sound : g.Sound) {line : Text.Line}
    (declared : g.declare line = .ok h) : g.Keeps h := by
  obtain ⟨⟨owner, targets⟩, _, attached⟩ := declare_eq_ok.mp declared
  have kept := sound.keeps_attachSwitch owner (.gather targets)
  rw [Step.after_of_ok attached] at kept
  exact kept

/-- Each line of a text adds one switch. -/
theorem Sound.keeps_declarations (sound : g.Sound) {lines : List Text.Line}
    (declared : lines.foldlM declare g = .ok h) : g.Keeps h := by
  induction lines generalizing g with
  | nil =>
      cases declared
      exact Keeps.refl sound
  | cons line rest ih =>
      rw [List.foldlM_cons, Reading.bind_eq_ok] at declared
      obtain ⟨next, first, later⟩ := declared
      have kept := sound.keeps_declare first
      exact kept.trans (ih kept.sound later)

/-- A graph that is read grows from the empty one without an imbalance. -/
theorem keeps_read {text : String} (described : read text = .ok g) : empty.Keeps g := by
  obtain ⟨header, lines, size, _, _, declared⟩ := read_eq_ok.mp described
  have plain := keeps_ofSize size
  exact plain.trans (plain.sound.keeps_declarations declared)

/-- Every start is balanced. -/
theorem Initial.keeps (start : Initial g) : Graph.empty.Keeps g := by
  cases start with
  | empty => exact Keeps.refl sound_empty
  | ofSize count => exact keeps_ofSize count
  | read described => exact keeps_read described

/-- Every reachable graph is as well kept as the empty one. -/
theorem Reachable.keeps (reached : Reachable g) : empty.Keeps g := by
  induction reached with
  | initial start => exact start.keeps
  | request request _ ih => exact ih.trans (ih.sound.keeps_request request)

/-- By induction on the requests, what is counted and what is listed never part. -/
theorem Reachable.imbalance_eq_zero (reached : Reachable g) (e : Edge) : g.imbalance e = 0 :=
  (reached.keeps.imbalance e).trans (imbalance_empty e)

end Graph

end Switchyard
