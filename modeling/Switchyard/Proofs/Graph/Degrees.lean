import Switchyard.Proofs.Graph.Drawing
import Switchyard.Proofs.Graph.Entries
import Switchyard.Proofs.Text.Marks

namespace Switchyard.Graph

open Text

/-- An arrow to the node of the block, in the style of a switch edge. -/
def arrowTo (name : String) (t : Label) : String :=
  " -> " ++ name ++ "_n" ++ toString t ++ "[style=\"dashed\""

/-- A node line of the block starts like this. -/
def nodeHead (name : String) (t : Label) : String :=
  name ++ "_n" ++ toString t ++ "[label=\""

/-- The in-degree of a block says how often the block is listed in tables, drawn as a target and
labelled. No count and no sum of counts exceeds the number of entries that are stored. -/
structure Tallied (g : Graph) : Prop where
  listed : ∀ t, (g.places t).encard = g.predecessors.inDegree t
  drawn : ∀ name, Plain name → ∀ t, ((g.drawing name).toList.splitOn '\n').countP
    (fun line => (arrowTo name t).toList <:+: line) = g.predecessors.inDegree t
  labelled : ∀ name, Plain name → ∀ t < g.size, ((g.drawing name).toList.splitOn '\n').filter
    (fun line => (nodeHead name t).toList <+: line) = [(nodeHead name t ++ toString t ++ " (" ++
      toString (g.predecessors.inDegree t) ++ ")\"];").toList]
  summed : ((List.range g.size).map g.predecessors.inDegree).sum = g.load
  bounded : ∀ t source, g.predecessors.multiplicity t source ≤ g.predecessors.inDegree t ∧
    g.predecessors.inDegree t ≤ g.load
  /-- A row and all rows together may be added up in any order. -/
  fitting : g.load < 2 ^ 64 →
    (∀ (t : Label) (counts : List Nat), counts.Perm ((g.predecessors.into t).map Prod.snd) →
        counts.foldlM Numeral.sum? 0 = some (g.predecessors.inDegree t)) ∧
    ∀ blocks : List Label, blocks.Perm (List.range g.size) →
      (blocks.map g.predecessors.inDegree).foldlM Numeral.sum? 0 = some g.load

variable {g : Graph} {name : String} {t : Label}

/-- A strand leads to a block when the number of the block and the style are read in its goal. -/
theorem exists_append_eq_goal (goal : Option (Label × Nat)) :
    (∃ back, " " ++ (name ++ ("_n" ++ (toString t ++ "[style=\"dashed\""))) ++ back =
      " " ++ Graph.goal name goal) ↔ goal.map Prod.fst = some t := by
  have closed (rest : String) : OpensWithout Char.isDigit ("[style=\"dashed\"" ++ rest) := by
    simp [OpensWithout]
  have styled : "[style=\"dashed\",label=\"" = "[style=\"dashed\"" ++ ",label=\"" := by decide
  rcases goal with _ | ⟨target, case⟩ <;>
    simp only [Graph.goal, styled, String.append_assoc, String.append_right_inj]
  · constructor
    · rintro ⟨back, same⟩
      exact absurd same (number_append_ne (by simp [OpensWithout]) t _)
    · rintro ⟨⟩
  · constructor
    · rintro ⟨back, same⟩
      obtain ⟨rfl, _⟩ := discerns_number t target _ _ (closed _) (closed _) same
      rfl
    · rintro ⟨⟩
      exact ⟨_, rfl⟩

/-- Lines without an arrow head have no arrow. -/
theorem countP_arrowTo_of_flat {lines : List String} (flat : ∀ line ∈ lines, '>' ∉ line.toList) :
    lines.countP (fun line => (arrowTo name t).toList <:+: line.toList) = 0 := by
  rw [List.countP_eq_zero]
  intro line drawn
  rw [decide_eq_true_iff]
  intro found
  exact flat line drawn (found.subset (by simp [arrowTo]))

section Plain

variable (plain : Plain name)
include plain

/-- No line feed is written in a name or in a number. -/
theorem Sound.splitOn_drawing (sound : g.Sound) :
    (g.drawing name).toList.splitOn '\n' = (g.drawingLines name).map String.toList := by
  have nameless := plain.notMem (c := '\n') (by decide)
  have numberless := notMem_toDigits (c := '\n') (by decide)
  apply splitOn_intercalate_lines
  · rw [sound.drawingLines_eq]
    intro line drawn
    simp only [List.mem_append, List.mem_cons, List.mem_map, List.not_mem_nil, or_false] at drawn
    rcases drawn with
      (((rfl | rfl) | ⟨node, _, rfl⟩) | ⟨⟨source, _ | ⟨target, case⟩⟩, _, rfl⟩) | rfl
    · simp [nameless]
    · simp [nameless]
    · simp [degreeLine, nameless, numberless]
    · simp [strandLine, endLine, nameless, numberless]
    · simp [strandLine, caseLine, nameless, numberless]
    · decide
  · simp [drawingLines]

/-- An arrow stands in strands only, and once in each of them. -/
theorem arrowTo_infix_strandLine (strand : Label × Option (Label × Nat)) :
    (arrowTo name t).toList <:+: (strandLine name strand).toList ↔
      strand.2.map Prod.fst = some t := by
  obtain ⟨source, goal⟩ := strand
  have nameless := plain.notMem (c := '>') (by decide)
  have numberless := notMem_toDigits (c := '>') (by decide)
  have before : '>' ∉ (name ++ "_n" ++ toString source ++ " -").toList := by
    simp [nameless, numberless]
  have behind : '>' ∉ (" " ++ Graph.goal name goal).toList := by
    cases goal <;> simp [Graph.goal, nameless, numberless]
  have arrow : (arrowTo name t).toList = " -".toList ++ '>' ::
      (" " ++ (name ++ ("_n" ++ (toString t ++ "[style=\"dashed\"")))).toList := by
    simp [arrowTo]
  have line : (strandLine name (source, goal)).toList =
      (name ++ "_n" ++ toString source ++ " -").toList ++
        '>' :: (" " ++ Graph.goal name goal).toList := by
    simp [strandLine_eq]
  have shaft : " -".toList <:+ (name ++ "_n" ++ toString source ++ " -").toList := by
    rw [String.toList_append]
    exact List.suffix_append _ _
  -- Each side has one arrow head, so the two are cut there and compared part by part.
  rw [arrow, line, infix_iff_of_notMem before behind, and_iff_right shaft, prefix_toList_iff]
  exact exists_append_eq_goal goal

/-- Among the lines of a drawing only the strands to the block have an arrow to it. -/
theorem Sound.countP_arrowTo (sound : g.Sound) (t : Label) :
    (g.drawingLines name).countP (fun line => (arrowTo name t).toList <:+: line.toList) =
      g.strands.countP (·.2.map Prod.fst = some t) := by
  have nameless := plain.notMem (c := '>') (by decide)
  have numberless := notMem_toDigits (c := '>') (by decide)
  have flatNodes : ∀ line ∈ g.degrees.map (degreeLine name), '>' ∉ line.toList := by
    rw [List.forall_mem_map]
    intro node _
    simp [degreeLine, nameless, numberless]
  have flatEnd : ∀ line ∈ ["\x7d"], '>' ∉ line.toList := by decide
  rw [sound.drawingLines_eq, List.countP_append, List.countP_append, List.countP_append,
    countP_arrowTo_of_flat (by simp [nameless]), countP_arrowTo_of_flat flatNodes,
    countP_arrowTo_of_flat flatEnd, Nat.add_zero, Nat.zero_add, List.countP_map]
  apply List.countP_congr
  intro strand _
  simp only [Function.comp_apply, decide_eq_true_iff]
  exact arrowTo_infix_strandLine plain strand

end Plain

/-- A block draws as many strands to a target as its table has entries for it. -/
theorem countP_strands_outline (g : Graph) (b t : Label) :
    (g.outline.strands b).countP (·.2.map Prod.fst = some t) = (g.targets b).count t := by
  have byTarget (targets : List Label) :
      targets.zipIdx.countP (fun entry => entry.1 = t) = targets.count t := by
    conv_rhs => rw [← List.zipIdx_map_fst 0 targets, List.count, List.countP_map]
    rfl
  rcases found : g.table b with fault | table
  · simp [Outline.strands, outline, found, targets_of_error found, Except.toOption]
  · simp [Outline.strands, outline, found, targets_of_table found, Except.toOption, List.countP_map,
      Function.comp_def, byTarget]

/-- The strands that are drawn to a block are the entries of the block. -/
theorem Sound.countP_strands (sound : g.Sound) (t : Label) :
    g.strands.countP (·.2.map Prod.fst = some t) = g.entries.count t := by
  rw [strands, List.countP_flatMap, sound.entries_eq, List.count_flatMap]
  congr 1
  apply List.map_congr_left
  intro b _
  exact countP_strands_outline g b t

/-- A node line starts with the head of its own block. -/
theorem nodeHead_prefix_degreeLine (node : Label × Nat) :
    (nodeHead name t).toList <+: (degreeLine name node).toList ↔ node.1 = t := by
  obtain ⟨b, degree⟩ := node
  rw [prefix_toList_iff]
  simp only [nodeHead, degreeLine, String.append_assoc, String.append_right_inj]
  constructor
  · rintro ⟨back, same⟩
    exact (discerns_number t b _ _ (by simp [OpensWithout]) (by simp [OpensWithout]) same).1.symm
  · rintro rfl
    exact ⟨_, rfl⟩

/-- No edge line starts like a node line. -/
theorem not_nodeHead_prefix_strandLine (strand : Label × Option (Label × Nat)) :
    ¬ (nodeHead name t).toList <+: (strandLine name strand).toList := by
  rw [prefix_toList_iff, strandLine_eq]
  simp only [nodeHead, String.append_assoc, String.append_right_inj]
  rintro ⟨back, same⟩
  have later := (discerns_number t strand.1 _ _ (by simp [OpensWithout]) (by simp [OpensWithout])
    same).2
  simp [← String.toList_inj] at later

theorem not_nodeHead_prefix_end : ¬ (nodeHead name t).toList <+:
    (name ++ "_nend[label=\"end\"]").toList := by
  have parted : "_nend[label=\"end\"]" = "_n" ++ "end[label=\"end\"]" := by decide
  rw [prefix_toList_iff, parted]
  simp only [nodeHead, String.append_assoc, String.append_right_inj]
  rintro ⟨back, same⟩
  exact number_append_ne (by simp [OpensWithout]) t _ same

/-- A line without a bracket is no node line. -/
theorem not_nodeHead_prefix {line : String} (bare : '[' ∉ line.toList) :
    ¬ (nodeHead name t).toList <+: line.toList := by
  intro headed
  exact bare (headed.subset (by simp [nodeHead]))

/-- A position below the bound is found once. -/
theorem filter_range_eq {count : Nat} (inside : t < count) :
    (List.range count).filter (· = t) = [t] := by
  have once : (List.range count).count t = 1 :=
    List.count_eq_one_of_mem List.nodup_range (List.mem_range.mpr inside)
  have same := List.filter_eq (l := List.range count) t
  rwa [once, List.replicate_one] at same

/-- Every block of the graph has one node line. -/
theorem Sound.filter_nodeHead (sound : g.Sound) (plain : Plain name) (inside : t < g.size) :
    ((g.drawingLines name).filter fun line => (nodeHead name t).toList <+: line.toList) =
      [degreeLine name (t, g.predecessors.inDegree t)] := by
  have bare : '[' ∉ ("subgraph cluster_" ++ name ++ " \x7b label=\"" ++ name ++ "\";").toList := by
    simp [plain.notMem (c := '[') (by decide)]
  have bareEnd : '[' ∉ "\x7d".toList := by decide
  have nodes : (g.degrees.map (degreeLine name)).filter
      (fun line => (nodeHead name t).toList <+: line.toList) =
        [degreeLine name (t, g.predecessors.inDegree t)] := by
    simp only [List.filter_map, Function.comp_def, nodeHead_prefix_degreeLine, degrees,
      filter_range_eq inside, List.map_cons, List.map_nil]
  have strands : (g.strands.map (strandLine name)).filter
      (fun line => (nodeHead name t).toList <+: line.toList) = [] := by
    rw [List.filter_eq_nil_iff, List.forall_mem_map]
    intro strand _
    rw [decide_eq_true_iff]
    exact not_nodeHead_prefix_strandLine strand
  simp only [sound.drawingLines_eq, List.filter_append, nodes, strands, List.filter_cons,
    List.filter_nil, not_nodeHead_prefix bare, not_nodeHead_prefix bareEnd,
    not_nodeHead_prefix_end, decide_false, Bool.false_eq_true, ↓reduceIte, List.nil_append,
    List.append_nil]

/-- The lines with an arrow to a block are as many as the entries that name it. -/
theorem Sound.countP_arrowTo_drawing (sound : g.Sound) (plain : Plain name) (t : Label) :
    ((g.drawing name).toList.splitOn '\n').countP (fun line => (arrowTo name t).toList <:+: line) =
      g.entries.count t := by
  rw [sound.splitOn_drawing plain, List.countP_map, ← sound.countP_strands,
    ← sound.countP_arrowTo plain]
  rfl

/-- The node line of a block is the only line that starts with its head. -/
theorem Sound.filter_nodeHead_drawing (sound : g.Sound) (plain : Plain name) (inside : t < g.size) :
    ((g.drawing name).toList.splitOn '\n').filter (fun line => (nodeHead name t).toList <+: line) =
      [(degreeLine name (t, g.predecessors.inDegree t)).toList] := by
  have nodes := sound.filter_nodeHead plain inside
  rw [sound.splitOn_drawing plain, List.filter_map, ← List.map_singleton, ← nodes]
  rfl

/-- An in-degree is bounded by the number of all entries. -/
theorem Reachable.inDegree_le_load (reached : g.Reachable) (t : Label) :
    g.predecessors.inDegree t ≤ g.load := by
  rw [reached.inDegree_eq_count, ← length_entries]
  exact List.count_le_length

/-- All in-degrees together are all entries. -/
theorem Reachable.sum_inDegree (reached : g.Reachable) :
    ((List.range g.size).map g.predecessors.inDegree).sum = g.load := by
  rw [← reached.keeps.sound.sum_count_entries]
  congr 1
  apply List.map_congr_left
  intro t _
  exact reached.inDegree_eq_count t

/-- Tables, counts and drawings of a reachable graph count the same edges. -/
theorem Reachable.tallied (reached : g.Reachable) : g.Tallied where
  listed t := by rw [reached.inDegree_eq_count, reached.keeps.sound.encard_places]
  drawn name plain t := by
    rw [reached.inDegree_eq_count, reached.keeps.sound.countP_arrowTo_drawing plain]
  labelled name plain t inside := reached.keeps.sound.filter_nodeHead_drawing plain inside
  summed := reached.sum_inDegree
  bounded t source := ⟨g.predecessors.multiplicity_le_inDegree t source, reached.inDegree_le_load t⟩
  fitting small := by
    constructor
    · intro t counts reordered
      apply Numeral.foldlM_sum?_of_sum_eq
      · rw [reordered.sum_eq, Predecessors.inDegree_eq_sum]
      · exact Nat.lt_of_le_of_lt (reached.inDegree_le_load t) small
    · intro blocks reordered
      apply Numeral.foldlM_sum?_of_sum_eq _ small
      rw [(reordered.map _).sum_eq, reached.sum_inDegree]

/-- Block `1` is listed twice by block `0`. The push to block `0` is accepted, and the clearing of
block `2` is refused. -/
theorem tallied_after_refusal :
    let start := Request.after (.attachSwitch 1 (.ofList []))
      (Request.after (.attachSwitch 0 (.ofList [1, 2, 1])) (ofSize 3))
    let g := Request.after (.script [⟨0, .push 0⟩, ⟨2, .clear⟩]) start
    g.Reachable ∧ g.Tallied ∧ g.load = 4 ∧ (g.places 1).encard = 2 ∧
      ((g.drawing "cfg_1").toList.splitOn '\n').countP
        (fun line => (arrowTo "cfg_1" 1).toList <:+: line) = 2 := by
  intro start g
  have reached : g.Reachable := .request _ (.request _ (.request _ (.initial (.ofSize 3))))
  have tallied := reached.tallied
  have degree : g.predecessors.inDegree 1 = 2 := by decide
  refine ⟨reached, tallied, by decide, ?_, ?_⟩
  · rw [tallied.listed, degree]
    rfl
  · rw [tallied.drawn "cfg_1" (by decide), degree]

end Switchyard.Graph
