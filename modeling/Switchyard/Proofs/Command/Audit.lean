import Switchyard.Command.Run
import Switchyard.Proofs.Graph.Accounting

namespace Switchyard.Command

open Switchyard.Graph

variable {m : Type → Type} [Monad m] [LawfulMonad m]

/-- A graph that was read from a text is where requests start from. -/
theorem reachable_of_readGraph {path text : String} {g : Graph}
    (described : readGraph path text = .ok g) : g.Reachable := by
  unfold readGraph at described
  cases read : Graph.read text with
  | error fault => simp [read, Except.mapError] at described
  | ok h =>
      simp only [read, Except.mapError, Except.ok.injEq] at described
      exact described ▸ Reachable.initial (Initial.read read)

/-- A script that succeeds is a request. -/
theorem reachable_of_runScript {script : Script} {g h : Graph} {edits : List Applied}
    (reached : g.Reachable) (ended : runScript script g = .ok (edits, h)) : h.Reachable := by
  unfold runScript at ended
  have after : (Step.after script.run g).Reachable := .request (.script script) reached
  cases run : script.run g with
  | error fault left => simp [run] at ended
  | ok applied left =>
      rw [Step.after_of_ok run] at after
      simp only [run, Except.ok.injEq, Prod.mk.injEq] at ended
      exact ended.2 ▸ after

/-- Whatever follows sees reachable graphs alone. -/
theorem loadAndEdit_bind_congr {α : Type} (host : Host m) (options : Options)
    {next other : List Applied × Graph → ExceptT Failure m α}
    (same : ∀ edits g, g.Reachable → next (edits, g) = other (edits, g)) :
    loadAndEdit host options >>= next = loadAndEdit host options >>= other := by
  simp only [loadAndEdit, bind_assoc]
  refine bind_congr fun text => ?_
  cases described : readGraph options.graph text with
  | error fault => simp only [liftExcept, ExceptT.bind_throw]
  | ok g =>
      have reached := reachable_of_readGraph described
      simp only [liftExcept, pure_bind]
      cases options.script with
      | none => simp only [pure_bind, same [] g reached]
      | some path =>
          simp only [bind_assoc]
          refine bind_congr fun words => ?_
          cases readScript path words with
          | error fault => simp only [ExceptT.bind_throw]
          | ok script =>
              simp only [pure_bind]
              cases ended : runScript script g with
              | error fault => simp only [ExceptT.bind_throw]
              | ok result =>
                  obtain ⟨edits, h⟩ := result
                  simp only [pure_bind, same edits h (reachable_of_runScript reached ended)]

/-- No sequence of requests parts the counts from the tables. So the command runs as if it had no
audit. -/
theorem reachable_graphs_pass_audit {g : Graph} (reached : g.Reachable) :
    g.Accounted ∧
      ∀ {m : Type → Type} [Monad m] [LawfulMonad m] (host : Host m) (options : Options),
        run host options = (do
          let (edits, h) ← loadAndEdit host options
          writeText host options.output (options.render h edits)) := by
  refine ⟨reached.accounted, fun host options => ?_⟩
  apply loadAndEdit_bind_congr
  intro edits h reached
  simp only [reached.accounted.audited, Except.mapError, liftExcept, pure_bind]

/-- A refused switch, a refused target and a refused edit leave nothing for the audit to find. -/
theorem refused_requests_pass_audit :
    let g := Request.after (.script [⟨2, .remove 0⟩, ⟨2, .push 9⟩, ⟨2, .clear⟩])
      (Request.after (.demand 2 (.extend [1, 9, 0]))
        (Request.after (.attachSwitch 2 (.ofList [0, 0, 2]))
          (Request.after (.addSwitch (.ofList [0, 7])) (ofSize 2))))
    g.targets 2 = [0, 2, 1] ∧ g.Accounted := by
  refine ⟨by decide, ?_⟩
  apply (reachable_graphs_pass_audit _).1
  exact .request _ (.request _ (.request _ (.request _ (.initial (.ofSize 2)))))

end Switchyard.Command
