import Switchyard.Command.Outcome
import Switchyard.Proofs.Command.Audit
import Switchyard.Proofs.Command.World

namespace Switchyard.Command

/-- What is written about a graph and the edits behind it, in each form that the options can ask for. A
drawing stands between the lines of a graph of its own, and a document is ended by a line feed. -/
inductive Options.Rendering (options : Options) (h : Graph) (edits : List Applied) :
    String → Prop where
  | drawing (drawn : options.dot = true) :
      Rendering options h edits ("digraph \x7b\n" ++ h.drawing "cfg" ++ "\n\x7d\n")
  | text (reported : options.dot = false) (plain : options.format = .text) :
      Rendering options h edits (Report.ofGraph h edits).toText
  | document (reported : options.dot = false) (structured : options.format = .json) :
      Rendering options h edits ((Report.ofGraph h edits).toJson.render ++ "\n")

/-- There is one rendering for any options, and it is what the command writes. -/
theorem Options.render_eq_iff {options : Options} {h : Graph} {edits : List Applied}
    {text : String} : options.render h edits = text ↔ options.Rendering h edits text := by
  constructor
  · rintro rfl
    unfold render
    cases asked : options.dot with
    | true => exact .drawing asked
    | false =>
        cases form : options.format with
        | text => exact .text asked form
        | json => exact .document asked form
  · rintro (drawn | ⟨reported, plain⟩ | ⟨reported, structured⟩)
    · simp only [render, drawn, ↓reduceIte, drawingText]
    · simp only [render, reported, Bool.false_eq_true, ↓reduceIte, plain]
    · simp only [render, reported, Bool.false_eq_true, ↓reduceIte, structured]

namespace World

/-- The script that the options ask for. The input holds nothing any more when the graph was read
from it. -/
inductive Directs (w : World) (options : Options) : Script → Prop where
  | absent (unnamed : options.script = none) : Directs w options []
  | usedUp {path : String} (named : options.script = some path)
      (first : w.source? options.graph = some .input) (again : w.source? path = some .input) :
      Directs w options []
  | read {path text : String} {source : Source} {script : Script}
      (named : options.script = some path) (found : w.source? path = some source)
      (fresh : ¬ (w.source? options.graph = some .input ∧ source = .input))
      (stored : w.bytes source = text.toUTF8) (directed : Script.read text = .ok script) :
      Directs w options script

/-- The edits and the graph behind them, from what the files and the input hold. -/
def Yields (w : World) (options : Options) (edits : List Applied) (h : Graph) : Prop :=
  ∃ source text g script, w.source? options.graph = some source ∧
    w.bytes source = text.toUTF8 ∧ Graph.read text = .ok g ∧ w.Directs options script ∧
    script.run g = .ok edits h

/-- The text that the options ask for. -/
def Renders (w : World) (options : Options) (text : String) : Prop :=
  ∃ edits h, w.Yields options edits h ∧ options.Rendering h edits text

variable {w later : World} {options : Options} {edits : List Applied} {g h : Graph}
  {script : Script} {source : Source} {path : String}

/-- Nothing but the input is used up. -/
theorem bytes_afterRead {first second : Source} (fresh : ¬ (first = .input ∧ second = .input)) :
    (w.afterRead first).bytes second = w.bytes second := by
  cases first with
  | stored => rfl
  | input =>
      cases second with
      | stored => rfl
      | input => exact absurd ⟨rfl, rfl⟩ fresh

theorem runScript_eq_ok {script : Script} :
    runScript script g = .ok (edits, h) ↔ script.run g = .ok edits h := by
  unfold runScript
  rcases script.run g with ⟨told, k⟩ | k <;> simp

/-- What the command does with the graph that it has read. -/
def direct (options : Options) (g : Graph) :
    ExceptT Failure (StateM World) (List Applied × Graph) := do
  match options.script with
  | none => return ([], g)
  | some path =>
      let script ← liftExcept (readScript path (← readText host path))
      liftExcept (runScript script g)

theorem loadAndEdit_eq (options : Options) :
    loadAndEdit host options = (do
      direct options (← liftExcept (readGraph options.graph (← readText host options.graph)))) :=
  rfl

/-- Neither the script nor its run writes anything. -/
theorem spares_direct (options : Options) (g : Graph) : Spares (direct options g) := by
  unfold direct
  rcases options.script with _ | path
  · exact spares_pure _
  · exact spares_bind (spares_readText path) fun words =>
      spares_bind (spares_liftExcept _) fun script => spares_liftExcept _

/-- All inputs are read before anything is written. -/
theorem spares_loadAndEdit (options : Options) : Spares (loadAndEdit host options) :=
  spares_bind (spares_readText _) fun _ => spares_bind (spares_liftExcept _) (spares_direct options)

/-- Without a path there are no edits. -/
theorem directs_of_unnamed (unnamed : options.script = none) :
    w.Directs options script ↔ script = [] := by
  constructor
  · intro directs
    cases directs with
    | absent => rfl
    | usedUp named => cases unnamed.symm.trans named
    | read named => cases unnamed.symm.trans named
  · rintro rfl
    exact .absent unnamed

/-- After the graph is read, the script is still as it was, unless it was to come from the input as
well. Then nothing is left of it. -/
theorem directs_of_named (found : w.source? options.graph = some source)
    (named : options.script = some path) :
    w.Directs options script ↔ ∃ second text, w.source? path = some second ∧
      (w.afterRead source).bytes second = text.toUTF8 ∧ Script.read text = .ok script := by
  have nothing : Script.read "" = .ok [] := by decide
  constructor
  · intro directs
    cases directs with
    | absent unnamed => cases unnamed.symm.trans named
    | usedUp namedToo first again =>
        cases namedToo.symm.trans named
        cases first.symm.trans found
        exact ⟨.input, "", again, rfl, nothing⟩
    | read namedToo foundToo fresh stored directed =>
        cases namedToo.symm.trans named
        rw [found, Option.some.injEq] at fresh
        exact ⟨_, _, foundToo, by rwa [bytes_afterRead fresh], directed⟩
  · rintro ⟨second, text, foundToo, stored, directed⟩
    by_cases both : source = .input ∧ second = .input
    · obtain ⟨rfl, rfl⟩ := both
      have empty : text = "" := String.toByteArray_inj.mp stored.symm
      rw [empty, nothing] at directed
      cases directed
      exact .usedUp named found foundToo
    · rw [bytes_afterRead both] at stored
      exact .read named foundToo (by rwa [found, Option.some.injEq]) stored directed

/-- What is done with the graph depends on the script that is directed. -/
theorem perform_direct_eq_ok (found : w.source? options.graph = some source) :
    (∃ later, perform (direct options g) (w.afterRead source) = (.ok (edits, h), later)) ↔
      ∃ script, w.Directs options script ∧ script.run g = .ok edits h := by
  unfold direct
  rcases named : options.script with _ | path
  · simp only [directs_of_unnamed named, exists_eq_left, perform_pure]
    constructor
    · rintro ⟨_, ran⟩
      cases ran
      rfl
    · intro ran
      cases ran
      exact ⟨_, rfl⟩
  · simp only [directs_of_named found named, perform_bind_eq_ok, perform_readText_eq_ok,
      perform_liftExcept_eq_ok, (kept_afterRead w source).source?_eq, readScript,
      Reading.mapError_eq_ok, runScript_eq_ok]
    constructor
    · rintro ⟨_, text, _, ⟨second, foundToo, stored, rfl⟩, script, _, ⟨directed, rfl⟩, ended, rfl⟩
      exact ⟨script, ⟨second, text, foundToo, stored, directed⟩, ended⟩
    · rintro ⟨script, ⟨second, text, foundToo, stored, directed⟩, ended⟩
      exact ⟨_, text, _, ⟨second, foundToo, stored, rfl⟩, script, _, ⟨directed, rfl⟩, ended, rfl⟩

/-- The edits are loaded and made exactly when files and input yield them. -/
theorem perform_loadAndEdit_eq_ok :
    (∃ later, perform (loadAndEdit host options) w = (.ok (edits, h), later)) ↔
      w.Yields options edits h := by
  simp only [loadAndEdit_eq, perform_bind_eq_ok, perform_readText_eq_ok, perform_liftExcept_eq_ok,
    readGraph, Reading.mapError_eq_ok]
  constructor
  · rintro ⟨_, text, _, ⟨source, found, stored, rfl⟩, g, _, ⟨described, rfl⟩, directed⟩
    obtain ⟨script, directs, ended⟩ := (perform_direct_eq_ok found).mp ⟨_, directed⟩
    exact ⟨source, text, g, script, found, stored, described, directs, ended⟩
  · rintro ⟨source, text, g, script, found, stored, described, directs, ended⟩
    obtain ⟨later, directed⟩ := (perform_direct_eq_ok found).mpr ⟨script, directs, ended⟩
    exact ⟨later, text, _, ⟨source, found, stored, rfl⟩, g, _, ⟨described, rfl⟩, directed⟩

/-- The audit has nothing to find in a graph that was yielded. -/
theorem Yields.reachable (yields : w.Yields options edits h) : h.Reachable := by
  obtain ⟨source, text, g, script, found, stored, described, directs, ended⟩ := yields
  have given : readGraph options.graph text = .ok g := Reading.mapError_eq_ok.mpr described
  exact reachable_of_runScript (reachable_of_readGraph given) (runScript_eq_ok.mpr ended)

/-- The rendering can be computed from the texts of the graph and of the script. -/
theorem renders_of_shown {graph text : String} (found : w.source? options.graph = some source)
    (stored : w.bytes source = graph.toUTF8) (directs : w.Directs options script)
    (shown : ((Graph.read graph).toOption.bind fun g =>
      (Step.outcome script.run g).toOption.map fun edits =>
        options.render (Step.after script.run g) edits) = some text) : w.Renders options text := by
  obtain ⟨g, read, shown⟩ := Option.bind_eq_some_iff.mp shown
  obtain ⟨edits, ran, shown⟩ := Option.map_eq_some_iff.mp shown
  rw [Reading.toOption_eq_some] at read ran
  have ended : script.run g = .ok edits (Step.after script.run g) :=
    Step.eq_ok_iff.mpr ⟨ran, rfl⟩
  exact ⟨edits, _, ⟨source, graph, g, script, found, stored, read, directs, ended⟩,
    Options.render_eq_iff.mp shown⟩

/-- Behind the edits only the output is left to fail. -/
theorem perform_run_of_yields (yields : w.Yields options edits h) :
    (∀ outlet, w.outlet? options.output = some outlet →
      ∃ later, perform (run host options) w = (.ok (), later) ∧
        w.Delivered (options.render h edits) later outlet) ∧
      (w.outlet? options.output = none →
        ∃ failure later, perform (run host options) w = (.error failure, later) ∧
          w.Kept later) := by
  obtain ⟨between, edited⟩ := perform_loadAndEdit_eq_ok.mpr yields
  have kept : w.Kept between := by
    have spared := spares_loadAndEdit options w
    rwa [edited] at spared
  have written : perform (run host options) w =
      perform (writeText host options.output (options.render h edits)) between := by
    have audited : h.audit.mapError Failure.audit = .ok () :=
      Reading.mapError_eq_ok.mpr yields.reachable.accounted.audited
    simp only [run, perform_bind, edited, audited, perform_liftExcept]
  obtain ⟨taken, refused⟩ :=
    perform_writeText between options.output (options.render h edits)
  rw [kept.outlet?_eq] at taken refused
  rw [written]
  constructor
  · intro outlet here
    obtain ⟨later, done, delivered⟩ := taken outlet here
    exact ⟨later, done, kept.delivered delivered⟩
  · intro nowhere
    obtain ⟨failure, failed⟩ := refused nowhere
    exact ⟨failure, between, failed, kept⟩

/-- Without edits nothing is written at all. -/
theorem perform_run_of_not_yields (fruitless : ∀ edits h, ¬ w.Yields options edits h) :
    ∃ failure later, perform (run host options) w = (.error failure, later) ∧ w.Kept later := by
  have kept := spares_loadAndEdit options w
  rcases edited : perform (loadAndEdit host options) w with ⟨failure | ⟨edits, h⟩, later⟩
  · rw [edited] at kept
    refine ⟨failure, later, ?_, kept⟩
    simp only [run, perform_bind, edited]
  · exact absurd (perform_loadAndEdit_eq_ok.mp ⟨later, edited⟩) (fruitless edits h)

/-- Options that are good lead to a run. -/
theorem execute_of_read {words : List String} (parsed : Options.read words = .ok options)
    (w : World) :
    execute host words w =
      match perform (run host options) w with
      | (.ok _, later) => (.done, later)
      | (.error failure, later) => (.failed failure, later) := by
  unfold execute
  simp only [parsed, bind, StateT.bind, perform]
  rcases (run host options).run w with ⟨failure | _, later⟩ <;> rfl

end World

open World

/-- A failed run leaves every file and the standard output as they were. A run that succeeds has
sent the asked text, taken from the files as they were before the run, to the output and has changed
nothing else. It succeeds whenever there is such a text and an outlet for it. -/
theorem files_are_safe {words : List String} {options : Options}
    (parsed : Options.read words = .ok options) (w : World) :
    let (outcome, later) := execute World.host words w
    (outcome.exitCode = 1 → w.Kept later) ∧
      (outcome.exitCode = 0 → ∃ text outlet, w.Renders options text ∧
        w.outlet? options.output = some outlet ∧ w.Delivered text later outlet) ∧
      ∀ text outlet, w.Renders options text → w.outlet? options.output = some outlet →
        outcome.exitCode = 0 ∧ w.Delivered text later outlet := by
  rw [execute_of_read parsed]
  -- With edits only the outlet decides. Without them no text can be asked for.
  by_cases fruitful : ∃ edits h, w.Yields options edits h
  · obtain ⟨edits, h, yields⟩ := fruitful
    obtain ⟨taken, refused⟩ := perform_run_of_yields yields
    rcases target : w.outlet? options.output with _ | outlet
    · obtain ⟨failure, later, failed, kept⟩ := refused target
      rw [failed]
      refine ⟨fun _ => kept, ?_, ?_⟩
      · rintro ⟨⟩
      · rintro _ _ _ ⟨⟩
    · obtain ⟨later, done, -⟩ := taken outlet target
      have delivered (text : String) (renders : w.Renders options text) :
          w.Delivered text later outlet := by
        obtain ⟨edits, h, yields, rendering⟩ := renders
        obtain ⟨last, again, delivered⟩ := (perform_run_of_yields yields).1 outlet target
        cases done.symm.trans again
        rwa [Options.render_eq_iff.mpr rendering] at delivered
      have renders : w.Renders options (options.render h edits) :=
        ⟨edits, h, yields, Options.render_eq_iff.mp rfl⟩
      rw [done]
      refine ⟨?_, fun _ => ⟨_, outlet, renders, rfl, delivered _ renders⟩, ?_⟩
      · rintro ⟨⟩
      · rintro text _ renders ⟨⟩
        exact ⟨rfl, delivered text renders⟩
  · obtain ⟨failure, later, failed, kept⟩ :=
      perform_run_of_not_yields fun edits h yields => fruitful ⟨edits, h, yields⟩
    rw [failed]
    refine ⟨fun _ => kept, ?_, ?_⟩
    · rintro ⟨⟩
    · rintro text _ ⟨edits, h, yields, -⟩
      exact absurd ⟨edits, h, yields⟩ fruitful

/-- The output is the file that the graph comes from, and the script comes from the input. The file
holds the report, the document or the drawing in full afterwards. -/
theorem graph_file_is_replaced :
    let w : World :=
      ⟨[(["g"], .file "blocks 2\nswitch 0 1 1\n".toUTF8)], [], "remove 0 1\n".toUTF8, ""⟩
    let replaced (form : List String) (text : String) : Prop :=
      let (outcome, later) := execute World.host (["g", "-", "-o", "g"] ++ form) w
      outcome.exitCode = 0 ∧ later.node? ["g"] = some (.file text.toUTF8)
    replaced [] ("remove 0 1\n  0: (1, none)\n\n" ++
      "switches:\n  0 -> [1]\n" ++ "predecessors:\n  1 <- 0x1\n") ∧
    replaced ["--format", "json"] ("\x7b\n  \"edits\": [\n    \x7b\n" ++
      "      \"edit\": \x7b\n        \"op\": \"remove\",\n        \"owner\": 0,\n" ++
      "        \"target\": 1\n      \x7d,\n      \"notifications\": [\n        \x7b\n" ++
      "          \"owner\": 0,\n          \"old\": 1,\n          \"new\": null\n" ++
      "        \x7d\n      ]\n    \x7d\n  ],\n  \"switches\": [\n    \x7b\n" ++
      "      \"block\": 0,\n      \"targets\": [\n        1\n      ]\n    \x7d\n  ],\n" ++
      "  \"predecessors\": [\n    \x7b\n      \"block\": 1,\n      \"predecessors\": [\n" ++
      "        [\n          0,\n          1\n        ]\n      ]\n    \x7d\n  ]\n\x7d\n") ∧
    replaced ["--dot"] ("digraph \x7b\nsubgraph cluster_cfg \x7b label=\"cfg\";\n" ++
      "cfg_nend[label=\"end\"]\ncfg_n0[label=\"0 (0)\"];\ncfg_n1[label=\"1 (1)\"];\n" ++
      "cfg_n0 -> cfg_n1[style=\"dashed\",label=\"0\"];\ncfg_n1 -> cfg_nend;\n\x7d\n\x7d\n") := by
  intro w replaced
  have start : w.start "g" = [] := by simp only [World.start, w, ite_self]
  have found : w.source? "g" = some (.stored "blocks 2\nswitch 0 1 1\n".toUTF8) := by
    simp only [source?, resolve, start]
    rfl
  have outlet : w.outlet? "g" = some (.file ["g"]) := by
    simp only [outlet?, outputPlace, start]
    rfl
  have directed : Script.read "remove 0 1\n" = .ok [⟨0, .remove 1⟩] := by decide
  have waiting : w.bytes .input = "remove 0 1\n".toUTF8 := rfl
  have unused : ¬ (w.source? "g" = some .input ∧ Source.input = .input) := by simp [found]
  -- The forms differ in the options alone, so graph and script are looked up once for all of them.
  have replace (form : List String) (options : Options) (text : String)
      (parsed : Options.read (["g", "-", "-o", "g"] ++ form) = .ok options)
      (places : options.graph = "g" ∧ options.script = some "-" ∧ options.output = "g")
      (shown : ((Graph.read "blocks 2\nswitch 0 1 1\n").toOption.bind fun g =>
        (Step.outcome (Script.run [⟨0, .remove 1⟩]) g).toOption.map fun edits =>
          options.render (Step.after (Script.run [⟨0, .remove 1⟩]) g) edits) = some text) :
      replaced form text := by
    obtain ⟨graph, script, output⟩ := places
    have directs : w.Directs options [⟨0, .remove 1⟩] :=
      .read script (rfl : w.source? "-" = some .input) (graph ▸ unused) waiting directed
    have renders : w.Renders options text := renders_of_shown (graph ▸ found) rfl directs shown
    obtain ⟨-, -, written⟩ := files_are_safe parsed w
    obtain ⟨done, stored, -⟩ := written text (.file ["g"]) renders (output ▸ outlet)
    exact ⟨done, stored⟩
  exact ⟨
    replace [] ⟨false, false, false, .text, "g", some "-", "g"⟩ _
      (by decide) (by decide) (by decide +kernel),
    replace ["--format", "json"] ⟨false, false, false, .json, "g", some "-", "g"⟩ _
      (by decide) (by decide) (by decide +kernel),
    replace ["--dot"] ⟨false, false, true, .text, "g", some "-", "g"⟩ _
      (by decide) (by decide) (by decide +kernel)⟩

end Switchyard.Command
