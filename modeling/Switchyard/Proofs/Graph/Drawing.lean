import Switchyard.Graph.Drawing
import Switchyard.Proofs.Graph.Drift
import Switchyard.Proofs.Script.Outline
import Switchyard.Proofs.Text.Discern

namespace Switchyard

open Text

/-- The edges that are drawn from a block: one for each case, or one to the end. -/
def Outline.strands (o : Outline) (b : Label) : List (Label × Option (Label × Nat)) :=
  match o.lists b with
  | none => [(b, none)]
  | some targets => targets.zipIdx.map fun case => (b, some case)

/-- A strand of a block leaves from this block. -/
theorem Outline.source_of_mem_strands {o : Outline} {b : Label}
    {strand : Label × Option (Label × Nat)} (drawn : strand ∈ o.strands b) : strand.1 = b := by
  unfold strands at drawn
  split at drawn
  · rw [List.mem_singleton.mp drawn]
  · obtain ⟨_, _, rfl⟩ := List.mem_map.mp drawn
    rfl

/-- The strands of a block are found again among those of all blocks. -/
theorem Outline.filter_strands (o : Outline) {count : Nat} {b : Label} (inside : b < count) :
    ((List.range count).flatMap o.strands).filter (·.1 = b) = o.strands b := by
  -- The source of a strand is its block, so the strands of other blocks are dropped.
  have own (p : Label) : (o.strands p).filter (·.1 = p) = o.strands p := by
    rw [List.filter_eq_self]
    intro strand drawn
    simp [source_of_mem_strands drawn]
  have other {p q : Label} (apart : q ≠ p) : (o.strands q).filter (·.1 = p) = [] := by
    rw [List.filter_eq_nil_iff]
    intro strand drawn
    simp [source_of_mem_strands drawn, apart]
  induction count with
  | zero => exact absurd inside (Nat.not_lt_zero b)
  | succ count ih =>
      rw [List.range_succ, List.flatMap_append, List.flatMap_singleton, List.filter_append]
      rcases Nat.lt_succ_iff_lt_or_eq.mp inside with old | rfl
      · rw [ih old, other (Nat.ne_of_gt old), List.append_nil]
      · have earlier : ((List.range b).flatMap o.strands).filter (·.1 = b) = [] := by
          rw [List.filter_eq_nil_iff]
          intro strand drawn
          obtain ⟨p, before, drawn⟩ := List.mem_flatMap.mp drawn
          rw [source_of_mem_strands drawn]
          simpa using Nat.ne_of_lt (List.mem_range.mp before)
        rw [earlier, own, List.nil_append]

/-- An empty switch is told from a plain block, which has a strand to the end. -/
theorem Outline.lists_eq_of_strands {o other : Outline} {b : Label}
    (same : o.strands b = other.strands b) : o.lists b = other.lists b := by
  have apart (targets : List Label) :
      [(b, none)] ≠ targets.zipIdx.map fun case => (b, some case) := by
    intro same
    have drawn : (b, none) ∈ targets.zipIdx.map fun case => (b, some case) := by simp [← same]
    simp at drawn
  have injective : Function.Injective fun case : Label × Nat => (b, some case) := by
    intro case another same
    exact Option.some.inj (Prod.mk.inj same).2
  unfold strands at same
  cases mine : o.lists b with
  | none =>
      cases yours : other.lists b with
      | none => rfl
      | some targets => exact absurd (by simpa only [mine, yours] using same) (apart targets)
  | some targets =>
      cases yours : other.lists b with
      | none => exact absurd (by simpa only [mine, yours] using same.symm) (apart targets)
      | some others =>
          simp only [mine, yours] at same
          have numbered := List.map_injective_iff.mpr injective same
          rw [← List.zipIdx_map_fst 0 targets, numbered, List.zipIdx_map_fst]

namespace Graph

variable {g h : Graph}

/-- The line of a strand, which leads to a target with its case or to the end. -/
def strandLine (name : String) : Label × Option (Label × Nat) → String
  | (source, none) => endLine name source
  | (source, some (target, case)) => caseLine name source target case

/-- A node line depends on the in-degree alone. -/
def degreeLine (name : String) (node : Label × Nat) : String :=
  name ++ "_n" ++ toString node.1 ++ "[label=\"" ++ toString node.1 ++ " (" ++
    toString node.2 ++ ")\"];"

/-- The lines before the first node. -/
def cluster (name : String) : String :=
  "subgraph cluster_" ++ name ++ " \x7b label=\"" ++ name ++ "\";" ++ "\n" ++ name ++
    "_nend[label=\"end\"]"

/-- Each block with its in-degree. -/
def degrees (g : Graph) : List (Label × Nat) :=
  (List.range g.size).map fun b => (b, g.predecessors.inDegree b)

/-- The strands of all blocks, in block order. -/
def strands (g : Graph) : List (Label × Option (Label × Nat)) :=
  (List.range g.size).flatMap g.outline.strands

/-- The edge lines of a block are the lines of its strands. -/
theorem edgeLines_eq (name : String) {b : Label} {block : Block}
    (here : g.blocks[b]? = some block) (label : block.label = b) :
    edgeLines name block = (g.outline.strands b).map (strandLine name) := by
  subst label
  cases switch : block.table <;>
    simp [edgeLines, switch, Outline.strands, outline, Graph.table, Graph.block, here,
      Except.toOption, strandLine]

/-- One line for the head of the cluster and one for its end, then the nodes and the strands. -/
theorem Sound.drawingLines_eq (sound : g.Sound) (name : String) :
    g.drawingLines name =
      ["subgraph cluster_" ++ name ++ " \x7b label=\"" ++ name ++ "\";",
        name ++ "_nend[label=\"end\"]"] ++
      g.degrees.map (degreeLine name) ++ g.strands.map (strandLine name) ++ ["\x7d"] := by
  have nodes : g.labels.map (g.nodeLine name) = g.degrees.map (degreeLine name) := by
    rw [labels, List.map_map, degrees, List.map_map]
    apply sound.map_blocks
    rintro _ block _ rfl
    rfl
  have edges : g.blocks.toList.flatMap (edgeLines name) = g.strands.map (strandLine name) := by
    rw [strands, List.map_flatMap, List.flatMap_def, List.flatMap_def]
    congr 1
    apply sound.map_blocks
    intro b block here label
    exact edgeLines_eq name here label
  rw [drawingLines, nodes, edges]

/-- Line feeds stand between the lines only. -/
theorem Sound.drawing_eq (sound : g.Sound) (name : String) :
    g.drawing name =
      cluster name ++ (String.join (g.degrees.map fun node => "\n" ++ degreeLine name node) ++
        String.join (g.strands.map fun strand => "\n" ++ strandLine name strand)) ++
          ("\n" ++ "\x7d") := by
  rw [drawing, sound.drawingLines_eq]
  unfold cluster
  simp only [List.cons_append, List.nil_append, intercalate_cons, List.map_append, List.map_cons,
    List.map_nil, List.map_map, String.join_append, String.join_cons, String.join_nil,
    Function.comp_def, String.append_assoc, String.append_empty]

/-- A node line tells its block and its in-degree. -/
theorem discerns_degreeLine (name : String) (a b : Label × Nat) :
    Discerns ("\n" ++ degreeLine name ·) (fun _ => True) a b := by
  intro s t _ _ same
  unfold degreeLine at same
  simp only [String.append_assoc, String.append_right_inj] at same
  obtain ⟨blocks, later⟩ := (discerns_number a.1 b.1).marked (by simp [OpensWithout]) same
  simp only [blocks, String.append_right_inj] at later
  obtain ⟨counts, rest⟩ := (discerns_number a.2 b.2).marked (by simp [OpensWithout]) later
  exact ⟨Prod.ext blocks counts, rest⟩

/-- The end is not taken for a block, for it has no number. -/
def goal (name : String) : Option (Label × Nat) → String
  | none => name ++ ("_n" ++ "end;")
  | some (target, case) => name ++ ("_n" ++ (toString target ++ ("[style=\"dashed\",label=\"" ++
      (toString case ++ "\"];"))))

/-- A strand line says where it starts and then where it leads. -/
theorem strandLine_eq (name : String) (strand : Label × Option (Label × Nat)) :
    strandLine name strand =
      name ++ ("_n" ++ (toString strand.1 ++ (" -> " ++ goal name strand.2))) := by
  obtain ⟨source, _ | ⟨target, case⟩⟩ := strand
  · unfold strandLine goal endLine
    simp only [String.append_assoc]
    rfl
  · unfold strandLine goal caseLine
    simp only [String.append_assoc]

/-- A target with its case is told apart from the end and from all others. -/
theorem discerns_goal (name : String) (a b : Option (Label × Nat)) :
    Discerns (goal name) (fun _ => True) a b := by
  have apart (n : Label) (s t : String) : toString n ++ s ≠ "end;" ++ t :=
    number_append_ne (by simp [OpensWithout]) n s
  intro s t _ _ same
  unfold goal at same
  rcases a with _ | ⟨target, case⟩ <;> rcases b with _ | ⟨other, another⟩ <;>
    simp only [String.append_assoc, String.append_right_inj] at same
  · exact ⟨rfl, same⟩
  · exact absurd same.symm (apart other _ s)
  · exact absurd same (apart target _ t)
  · obtain ⟨rfl, later⟩ := (discerns_number target other).marked (by simp [OpensWithout]) same
    obtain ⟨rfl, rest⟩ := (discerns_number case another).marked (by simp [OpensWithout]) later
    exact ⟨rfl, rest⟩

/-- A strand line tells its strand. -/
theorem discerns_strandLine (name : String) (a b : Label × Option (Label × Nat)) :
    Discerns ("\n" ++ strandLine name ·) (fun _ => True) a b := by
  intro s t _ _ same
  simp only [strandLine_eq, String.append_assoc, String.append_right_inj] at same
  obtain ⟨blocks, later⟩ := (discerns_number a.1 b.1).marked (by simp [OpensWithout]) same
  obtain ⟨goals, rest⟩ := discerns_goal name a.2 b.2 s t trivial trivial later
  exact ⟨Prod.ext blocks goals, rest⟩

/-- Behind the number of a block, a node goes on with a bracket and a strand with an arrow. -/
theorem ends_degreeLine (name : String) (strands : List (Label × Option (Label × Nat))) :
    Ends ("\n" ++ degreeLine name ·) (fun _ => True)
      (String.join (strands.map ("\n" ++ strandLine name ·))) where
  behind := trivial
  apart node rest same := by
    cases strands with
    | nil => simp [← String.toList_inj] at same
    | cons strand strands =>
        unfold degreeLine at same
        simp only [List.map_cons, String.join_cons, strandLine_eq, String.append_assoc,
          String.append_right_inj] at same
        -- The two numbers would be the same, and the rest would have to be so too.
        obtain ⟨_, later⟩ := discerns_number node.1 strand.1 _ _
          (by simp [OpensWithout]) (by simp [OpensWithout]) same
        simp [← String.toList_inj] at later

/-- A strand line is not taken for the closing line. -/
theorem ends_strandLine (name : String) : Ends ("\n" ++ strandLine name ·) (fun _ => True) "" where
  behind := trivial
  apart strand rest := by simp [← String.toList_inj]

/-- The lines of a drawing are told apart one by one. -/
theorem Sound.eq_of_drawing {name : String} (left : g.Sound) (right : h.Sound)
    (same : g.drawing name = h.drawing name) : g.degrees = h.degrees ∧ g.strands = h.strands := by
  rw [left.drawing_eq, right.drawing_eq, String.append_left_inj, String.append_right_inj] at same
  obtain ⟨degrees, later⟩ := discerns_join (fun a _ b _ => discerns_degreeLine name a b)
    (fun _ _ => trivial) _ _ (ends_degreeLine name _) (ends_degreeLine name _) same
  obtain ⟨strands, _⟩ := discerns_join (fun a _ b _ => discerns_strandLine name a b)
    (fun _ _ => trivial) _ _ (ends_strandLine name) (ends_strandLine name)
    (congrArg (· ++ "") later)
  exact ⟨degrees, strands⟩

/-- Beyond the blocks nothing is counted. -/
theorem Sound.inDegree_of_le (sound : g.Sound) {b : Label} (outside : g.size ≤ b) :
    g.predecessors.inDegree b = 0 := by
  rw [Predecessors.inDegree_eq_sum, sound.into_of_le outside, List.map_nil, List.sum_nil]

/-- Beyond the blocks nothing is listed. -/
theorem lists_outline_of_le {b : Label} (outside : g.size ≤ b) : g.outline.lists b = none := by
  have missing : g.blocks[b]? = none := Array.getElem?_eq_none_iff.mpr outside
  simp [outline, Graph.table, Graph.block, missing, Except.toOption]

/-- The node lines show how many blocks there are. -/
theorem size_eq_of_degrees (same : g.degrees = h.degrees) : g.size = h.size := by
  simpa [degrees] using congrArg List.length same

/-- A block that is not in the graph has no predecessors. -/
theorem Sound.inDegree_eq_of_degrees (left : g.Sound) (right : h.Sound)
    (same : g.degrees = h.degrees) (b : Label) :
    g.predecessors.inDegree b = h.predecessors.inDegree b := by
  have sizes := size_eq_of_degrees same
  by_cases inside : b < g.size
  · have drawn : (b, g.predecessors.inDegree b) ∈ h.degrees := by
      rw [← same]
      exact List.mem_map.mpr ⟨b, List.mem_range.mpr inside, rfl⟩
    obtain ⟨_, _, entry⟩ := List.mem_map.mp drawn
    obtain ⟨rfl, counted⟩ := Prod.mk.inj entry
    exact counted.symm
  · rw [left.inDegree_of_le (Nat.le_of_not_lt inside),
      right.inDegree_of_le (sizes ▸ Nat.le_of_not_lt inside)]

/-- The edge lines show which lists the switches have. -/
theorem outline_eq_of_strands (sizes : g.size = h.size) (same : g.strands = h.strands) :
    g.outline = h.outline := by
  have lists : g.outline.lists = h.outline.lists := by
    funext b
    by_cases inside : b < g.size
    · apply Outline.lists_eq_of_strands
      rw [← g.outline.filter_strands inside, ← h.outline.filter_strands (sizes ▸ inside)]
      exact congrArg (List.filter (·.1 = b)) same
    · rw [lists_outline_of_le (Nat.le_of_not_lt inside),
        lists_outline_of_le (sizes ▸ Nat.le_of_not_lt inside)]
  exact congrArg₂ Outline.mk sizes lists

/-- Two graphs have the same drawing exactly when their switches and their in-degrees are the
same. -/
theorem drawing_eq_drawing_iff (left : g.Disturbed) (right : h.Disturbed) (name : String) :
    g.drawing name = h.drawing name ↔
      g.outline = h.outline ∧
        ∀ b, g.predecessors.inDegree b = h.predecessors.inDegree b := by
  constructor
  · intro same
    obtain ⟨degrees, strands⟩ := left.sound.eq_of_drawing right.sound same
    exact ⟨outline_eq_of_strands (size_eq_of_degrees degrees) strands,
      left.sound.inDegree_eq_of_degrees right.sound degrees⟩
  · rintro ⟨outlines, inDegrees⟩
    have sizes : g.size = h.size := congrArg Outline.size outlines
    have sameDegrees : g.degrees = h.degrees := by simp only [degrees, sizes, inDegrees]
    have sameStrands : g.strands = h.strands := by rw [strands, strands, sizes, outlines]
    rw [left.sound.drawing_eq, right.sound.drawing_eq, sameDegrees, sameStrands]

/-- One more edge is reported from block `2` or from block `0`. Block `1` has in-degree two in both
graphs. -/
theorem drawing_of_other_predecessor :
    let start := Request.after (.attachSwitch 0 (.ofList [1])) (ofSize 3)
    let g := Step.after (onPredecessors (Predecessors.observer ⟨2, none, some 1⟩)) start
    let h := Step.after (onPredecessors (Predecessors.observer ⟨0, none, some 1⟩)) start
    g.predecessors.into 1 ≠ h.predecessors.into 1 ∧ g.drawing "cfg" = h.drawing "cfg" ∧
      g.outline = h.outline ∧ ∀ b, g.predecessors.inDegree b = h.predecessors.inDegree b := by
  have start : Disturbed (Request.after (.attachSwitch 0 (.ofList [1])) (ofSize 3)) :=
    .request _ (.initial (.ofSize 3))
  intro _ g h
  have same : g.drawing "cfg" = h.drawing "cfg" := by decide +kernel
  refine ⟨by decide, same, ?_⟩
  exact (drawing_eq_drawing_iff (.report _ start) (.report _ start) "cfg").mp same

end Graph

end Switchyard
