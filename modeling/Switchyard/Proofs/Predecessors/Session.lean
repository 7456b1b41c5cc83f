import Switchyard.Proofs.Predecessors.Queries
import Mathlib.Data.List.Induction

namespace Switchyard

namespace Change

variable {change : Change} {wired : Label → Bool} {count : Label → Nat}

/-- A stray block decides, and the first one is named. -/
theorem verdict_stray {b : Label} (stray : change.blocks.find? (!wired ·) = some b) :
    change.verdict wired count = .error (.illegal (.notWired b)) := by
  simp only [verdict, stray]

/-- With all its blocks wired, a change is refused only for an edge that is not counted. -/
theorem verdict_wired (allWired : ∀ b ∈ change.blocks, wired b = true) :
    change.verdict wired count =
      match change.old with
      | none => .ok ()
      | some old =>
          if count old = 0 then .error (.illegal (.edgeMissing change.owner old)) else .ok () := by
  have noStray : change.blocks.find? (!wired ·) = none := by simpa using allWired
  unfold verdict
  split
  · next stray found =>
    rw [noStray] at found
    cases found
  · rfl

/-- A change is accepted when all its blocks are wired and the edge that it takes away is counted.
-/
theorem verdict_eq_ok :
    change.verdict wired count = .ok () ↔
      (∀ b ∈ change.blocks, wired b = true) ∧ ∀ old, change.old = some old → 1 ≤ count old := by
  by_cases allWired : ∀ b ∈ change.blocks, wired b = true
  · rw [verdict_wired allWired, and_iff_right allWired]
    rcases change.old with _ | old
    · simp
    · by_cases zero : count old = 0
      · simp [zero]
      · simp [zero, Nat.one_le_iff_ne_zero]
  · rcases stray : change.blocks.find? (!wired ·) with _ | b
    · exact absurd (by simpa using stray) allWired
    · rw [verdict_stray stray]
      constructor
      · intro accepted
        cases accepted
      · intro accepted
        exact absurd accepted.1 allWired

/-- So many changes bring an edge from the source to the target. -/
def gains (changes : List Change) (target source : Label) : Nat :=
  changes.countP fun c => c.owner = source ∧ c.new = some target

/-- So many changes take an edge from the source to the target away. -/
def losses (changes : List Change) (target source : Label) : Nat :=
  changes.countP fun c => c.owner = source ∧ c.old = some target

/-- One change more names one edge more, or none, on either of its sides. -/
theorem countP_side_concat (side : Change → Option Label) (changes : List Change) (c : Change)
    (target source : Label) :
    (changes ++ [c]).countP (fun c => c.owner = source ∧ side c = some target) =
      changes.countP (fun c => c.owner = source ∧ side c = some target) +
        if c.owner = source then (side c).toList.count target else 0 := by
  rw [List.countP_append, List.countP_singleton]
  rcases side c with _ | t
  · simp
  · by_cases same : c.owner = source <;> simp [same, List.count_singleton]

/-- The changes of different owners are different changes. -/
theorem sum_le_length {rows : List (Label × Nat)} {changes : List Change}
    (distinct : rows.Pairwise fun a b => a.1 < b.1)
    (counted : ∀ row ∈ rows, row.2 ≤ changes.countP (·.owner = row.1)) :
    (rows.map Prod.snd).sum ≤ changes.length := by
  induction rows generalizing changes with
  | nil => exact Nat.zero_le _
  | cons row rest ih =>
      obtain ⟨apart, distinctRest⟩ := List.pairwise_cons.mp distinct
      -- The changes of the first owner are set aside for the first row.
      have countedRest : ∀ other ∈ rest,
          other.2 ≤ (changes.filter (·.owner ≠ row.1)).countP (·.owner = other.1) := by
        intro other member
        have different : other.1 ≠ row.1 := Nat.ne_of_gt (apart other member)
        have same : (changes.filter (·.owner ≠ row.1)).countP (·.owner = other.1) =
            changes.countP (·.owner = other.1) := by
          rw [List.countP_filter]
          apply List.countP_congr
          intro c _
          simp only [decide_eq_true_eq, Bool.and_eq_true]
          exact ⟨And.left, fun own => ⟨own, own ▸ different⟩⟩
        exact same ▸ counted other (List.mem_cons_of_mem _ member)
      have others := ih distinctRest countedRest
      have own := counted row List.mem_cons_self
      have split := List.length_eq_countP_add_countP (p := fun c : Change => decide (c.owner = row.1))
        (l := changes)
      rw [← List.countP_eq_length_filter] at others
      simp only [List.map_cons, List.sum_cons]
      simp only [decide_not, Bool.not_eq_true, Bool.decide_eq_false] at others split
      omega

end Change

/-- What can be asked of the counts to do. -/
inductive Call where
  | wire (b : Label)
  | report (change : Change)
deriving DecidableEq, Repr

/-- The counts as they are, and the changes that they accepted so far. -/
structure Session where
  counts : Predecessors
  accepted : List Change

namespace Session

/-- New counts, without any block. -/
def new : Session := ⟨.empty, []⟩

/-- A change is kept when the counts accept it. -/
def call (s : Session) : Call → Session
  | .wire b => { s with counts := s.counts.wire b }
  | .report change =>
      match Predecessors.observer change s.counts with
      | .ok _ counts => ⟨counts, s.accepted ++ [change]⟩
      | .error _ counts => ⟨counts, s.accepted⟩

/-- The calls are made in order, and none of them ends the session. -/
def after (calls : List Call) : Session := calls.foldl call new

/-- The last call is made on what the others left. -/
theorem after_concat (calls : List Call) (c : Call) :
    after (calls ++ [c]) = (after calls).call c := by
  rw [after, List.foldl_concat]
  rfl

/-- A reported change is counted and kept, or the session stays as it is. -/
theorem call_report (s : Session) (change : Change) :
    (∃ r, Predecessors.observer change s.counts = .ok () r ∧
      s.call (.report change) = ⟨r, s.accepted ++ [change]⟩) ∨
      s.call (.report change) = s := by
  rcases heard : Predecessors.observer change s.counts with ⟨_, r⟩ | ⟨fault, r⟩
  · left
    simp only [call, heard]
    exact ⟨r, rfl, rfl⟩
  · right
    simp only [call, heard]
    rw [Predecessors.observer_of_refused heard]

/-- A call is accepted once at most. -/
theorem length_accepted_call (s : Session) (c : Call) :
    (s.call c).accepted.length ≤ s.accepted.length + 1 := by
  rcases c with b | change
  · exact Nat.le_succ _
  · rcases s.call_report change with ⟨r, _, kept⟩ | same
    · rw [kept]
      simp only [List.length_append, List.length_singleton, Nat.le_refl]
    · rw [same]
      exact Nat.le_succ _

/-- The session tells the history of its calls: exactly the blocks that were wired are wired, and an
edge is counted as often as it was gained and not lost. -/
structure Tells (calls : List Call) (s : Session) : Prop where
  wired : ∀ b, s.counts.isWired b = true ↔ .wire b ∈ calls
  balanced : ∀ target source,
    s.counts.multiplicity target source + Change.losses s.accepted target source =
      Change.gains s.accepted target source
  shorter : s.accepted.length ≤ calls.length

/-- Each call adds to the history what it does to the counts. -/
theorem Tells.call {calls : List Call} {s : Session} (told : s.Tells calls) (c : Call) :
    (s.call c).Tells (calls ++ [c]) := by
  -- The bound holds for both kinds of calls, so it is shown once for both.
  have shorter : (s.call c).accepted.length ≤ (calls ++ [c]).length := by
    have before := told.shorter
    have one := s.length_accepted_call c
    rw [List.length_append, List.length_singleton]
    omega
  rcases c with b | change
  · exact {
      wired := fun other => by
        rw [List.mem_append, List.mem_singleton, Call.wire.injEq, ← told.wired, or_comm,
          eq_comm (a := other)]
        simp only [Session.call, Predecessors.isWired_wire, Bool.or_eq_true, beq_iff_eq]
      balanced := fun target source => by
        simpa only [Session.call, Predecessors.multiplicity_wire] using told.balanced target source
      shorter }
  · have noWire (b : Label) : Call.wire b ∈ calls ++ [.report change] ↔ .wire b ∈ calls := by simp
    rcases s.call_report change with ⟨r, accepted, kept⟩ | same
    · rw [kept] at shorter ⊢
      exact {
        wired := fun b => by
          rw [noWire, ← told.wired]
          simp only [Predecessors.isWired_observer accepted]
        balanced := fun target source => by
          have before := told.balanced target source
          have counted := Predecessors.multiplicity_observer accepted target source
          simp only [Change.gains, Change.losses, Change.countP_side_concat] at before ⊢
          omega
        shorter }
    · rw [same] at shorter ⊢
      exact {
        wired := fun b => by rw [noWire, told.wired]
        balanced := told.balanced
        shorter }

/-- By induction on the calls, a session tells its whole history. -/
theorem tells_after (calls : List Call) : (after calls).Tells calls := by
  induction calls using List.reverseRecOn with
  | nil =>
      exact {
        wired := fun b => by simp [after, new]
        balanced := fun target source => by simp [after, new, Change.gains, Change.losses]
        shorter := Nat.le_refl 0 }
  | append_singleton calls c ih =>
      rw [after_concat]
      exact ih.call c

/-- All that the counts answer after some calls, and what the next call comes to. -/
structure Contract (calls : List Call) (s : Session) : Prop extends s.Tells calls where
  accepts : ∀ change : Change,
    Step.outcome (Predecessors.observer change) s.counts = .ok () ↔
      (∀ b ∈ change.blocks, .wire b ∈ calls) ∧
        ∀ old, change.old = some old → 1 ≤ s.counts.multiplicity old change.owner
  /-- The first block in the order of owner, old target and new target. -/
  refusesStray : ∀ (change : Change) (stray : Label),
    change.blocks.find? (fun b => .wire b ∉ calls) = some stray →
      Step.outcome (Predecessors.observer change) s.counts = .error (.illegal (.notWired stray))
  refusesMissing : ∀ (change : Change) (old : Label),
    (∀ b ∈ change.blocks, .wire b ∈ calls) → change.old = some old →
      s.counts.multiplicity old change.owner = 0 →
        Step.outcome (Predecessors.observer change) s.counts =
          .error (.illegal (.edgeMissing change.owner old))
  traceless : ∀ (change : Change) (fault : Fault),
    Step.outcome (Predecessors.observer change) s.counts = .error fault →
      Step.after (Predecessors.observer change) s.counts = s.counts
  listed : ∀ target source n,
    (source, n) ∈ s.counts.into target ↔ s.counts.multiplicity target source = n ∧ 0 < n
  increasing : ∀ target, (s.counts.into target).Pairwise fun a b => a.1 < b.1
  summed : ∀ target, s.counts.inDegree target = ((s.counts.into target).map Prod.snd).sum
  bounded : ∀ target, s.counts.inDegree target ≤ calls.length
  edged : ∀ e n, (e, n) ∈ s.counts.edges ↔ s.counts.multiplicity e.target e.source = n ∧ 0 < n
  once : (s.counts.edges.map Prod.fst).Nodup

/-- Every edge into a block was gained by a call of its own. -/
theorem inDegree_le {calls : List Call} {s : Session} (told : s.Tells calls) (target : Label) :
    s.counts.inDegree target ≤ calls.length := by
  rw [Predecessors.inDegree_eq_sum]
  refine Nat.le_trans (Change.sum_le_length (s.counts.ordered_into target) ?_) told.shorter
  rintro ⟨source, n⟩ listed
  obtain ⟨rfl, _⟩ := Predecessors.mem_into.mp listed
  have balanced := told.balanced target source
  have narrower : Change.gains s.accepted target source ≤
      s.accepted.countP (·.owner = source) := by
    apply List.countP_mono_left
    intro change _ gained
    simp only [decide_eq_true_eq] at gained ⊢
    exact gained.1
  simp only
  omega

/-- After any calls the counts keep their contract. -/
theorem contract_after (calls : List Call) : (after calls).Contract calls := by
  have told := tells_after calls
  have allWired (change : Change) : (∀ b ∈ change.blocks, Call.wire b ∈ calls) ↔
      ∀ b ∈ change.blocks, (after calls).counts.isWired b = true := by
    simp only [told.wired]
  exact {
    toTells := told
    accepts := fun change => by
      rw [Predecessors.outcome_observer, Change.verdict_eq_ok, allWired]
    refusesStray := fun change stray first => by
      rw [Predecessors.outcome_observer]
      apply Change.verdict_stray
      rw [← first]
      congr 1
      funext b
      simp only [← told.wired, Bool.not_eq_true, Bool.decide_eq_false]
    refusesMissing := fun change old known left zero => by
      rw [Predecessors.outcome_observer]
      rw [allWired] at known
      simp only [Change.verdict_wired known, left, zero, ↓reduceIte]
    traceless := fun change fault refused => by
      rcases heard : Predecessors.observer change (after calls).counts with ⟨_, r⟩ | ⟨other, r⟩
      · rw [Step.outcome_of_ok heard] at refused
        cases refused
      · rw [Step.after_of_error heard]
        exact Predecessors.observer_of_refused heard
    listed := fun _ _ _ => Predecessors.mem_into
    increasing := (after calls).counts.ordered_into
    summed := (after calls).counts.inDegree_eq_sum
    bounded := inDegree_le told
    edged := fun _ _ => Predecessors.mem_edges
    once := (after calls).counts.nodup_edges }

end Session

end Switchyard
