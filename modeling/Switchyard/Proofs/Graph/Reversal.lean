import Switchyard.Proofs.Graph.Frame
import Switchyard.Proofs.JumpTable.Stepwise

namespace Switchyard

variable {σ α β : Type}

/-- The edge goes back to where it came from. -/
def Change.reverse (change : Change) : Change := ⟨change.owner, change.new, change.old⟩

/-- The reverse change concerns the same blocks. -/
theorem Change.mem_blocks_reverse {change : Change} {b : Label} :
    b ∈ change.reverse.blocks ↔ b ∈ change.blocks := by
  simp only [reverse, blocks, List.mem_cons, List.mem_append]
  exact or_congr_right or_comm

/-- What the counts accepted they also take back. The edge that came is counted, so it can go, even
when its old target is the new one. -/
theorem Predecessors.accepts_reverse {p r : Predecessors} {change : Change}
    (taken : observer change p = .ok () r) :
    Step.outcome (observer change.reverse) r = .ok () := by
  have accepted : change.verdict p.isWired (p.multiplicity · change.owner) = .ok () := by
    rw [← outcome_observer]
    exact Step.outcome_of_ok taken
  obtain ⟨wired, counted⟩ := Change.verdict_eq_ok.mp accepted
  rw [outcome_observer, Change.verdict_eq_ok]
  constructor
  · intro b concerned
    rw [isWired_observer taken]
    exact wired b (Change.mem_blocks_reverse.mp concerned)
  · intro new came
    have moved := multiplicity_observer taken new change.owner
    have gained : change.new = some new := came
    simp only [gained, Option.toList_some, List.count_singleton_self, ↓reduceIte] at moved
    show 1 ≤ r.multiplicity new change.owner
    by_cases same : change.old = some new
    · have before := counted new same
      simp only [same, Option.toList_some, List.count_singleton_self] at moved
      omega
    · have apart : change.old.toList.count new = 0 := by
        rw [List.count_eq_zero, Option.mem_toList]
        exact same
      omega

/-- The answer that will be given if nothing is refused. -/
def Prospect.promised : Prospect α → Except Fault α
  | .settled result => result
  | .pending _ _ answer => .ok answer

namespace Amendment

variable {amendment : Amendment α} {owner : Label} {change : Change} {later : List Label}
  {answer : α} {s t : Observed σ} {observer : Observer σ}

/-- Every amendment keeps to the change that it reports. -/
theorem faithful_plan (amendment : Amendment α) : amendment.plan.Faithful := by
  cases amendment with
  | set index target => exact Plan.faithful_set index target
  | insert index target => exact Plan.faithful_insert index target
  | removeAt index => exact Plan.faithful_removeAt index
  | push target => exact Plan.faithful_push target
  | remove target => exact Plan.faithful_remove target

/-- An amendment that succeeds answers as promised. -/
theorem promised_of_ok (attached : s.table.owner = some owner)
    (ended : amendment.perform observer s = .ok answer t) :
    (amendment.prospect owner s.table.targets).promised = .ok answer := by
  rcases amendment.prospect_of_ok attached ended with ⟨settled, _⟩ | ⟨_, pending, _⟩
  · rw [settled, Prospect.promised]
  · rw [pending, Prospect.promised]

/-- The second amendment reports the reverse of the pending change, and it makes the old targets of
the new ones. -/
def TakesBack (back : Amendment β) (again : β) (owner : Label) (targets : List Label) :
    Prospect α → Prop
  | .settled _ => False
  | .pending change later _ => back.prospect owner later = .pending change.reverse targets again

section Counterpart

variable {index : Nat} {target old : Label} {targets : List Label}

/-- A pushed target stands at the old length. -/
theorem takesBack_push (owner target : Label) (targets : List Label) :
    (removeAt targets.length).TakesBack target owner targets
      ((push target).prospect owner targets) := by
  have erased : (targets ++ [target]).eraseIdx targets.length = targets := by
    rw [List.eraseIdx_append_of_length_le (Nat.le_refl _), Nat.sub_self]
    exact List.append_nil targets
  simp [TakesBack, prospect, Change.reverse, erased]

/-- An inserted target stands at its index. -/
theorem takesBack_insert
    (promised : ((insert index target).prospect owner targets).promised = .ok ()) :
    (removeAt index).TakesBack target owner targets
      ((insert index target).prospect owner targets) := by
  rw [prospect] at promised ⊢
  split at promised
  · next inside =>
    have later : index < (targets.insertIdx index target).length := by
      rw [List.length_insertIdx_of_le_length inside]
      omega
    simp [TakesBack, prospect, inside, later, Change.reverse, List.eraseIdx_insertIdx_self]
  · cases promised

/-- The displaced target is put back. -/
theorem takesBack_set
    (promised : ((set index target).prospect owner targets).promised = .ok old) :
    (set index old).TakesBack target owner targets
      ((set index target).prospect owner targets) := by
  rw [prospect] at promised ⊢
  split at promised
  · next inside =>
    cases promised
    simp [TakesBack, prospect, inside, Change.reverse]
  · cases promised

/-- A removed target is put back where it stood. -/
theorem takesBack_removeAt
    (promised : ((removeAt index).prospect owner targets).promised = .ok old) :
    (insert index old).TakesBack () owner targets
      ((removeAt index).prospect owner targets) := by
  rw [prospect] at promised ⊢
  split at promised
  · next inside =>
    cases promised
    have later : index ≤ (targets.eraseIdx index).length := by
      rw [List.length_eraseIdx_of_lt inside]
      omega
    simp [TakesBack, prospect, inside, later, Change.reverse, List.insertIdx_eraseIdx_getElem]
  · cases promised

/-- A removal that promises success has found its target. -/
theorem mem_of_promised
    (promised : ((remove target).prospect owner targets).promised = .ok true) :
    target ∈ targets := by
  by_contra absent
  simp [prospect, absent, Prospect.promised] at promised

/-- A target is removed where it occurs first. -/
theorem takesBack_remove (found : targets.idxOf? target = some index) :
    (insert index target).TakesBack () owner targets
      ((remove target).prospect owner targets) := by
  obtain ⟨inside, here, _⟩ := List.idxOf?_eq_some_iff.mp found
  have present : target ∈ targets := List.mem_of_getElem here
  have erased := List.erase_eq_eraseIdx targets target
  rw [found] at erased
  have removed : ((removeAt index).prospect owner targets).promised = .ok target := by
    simp only [prospect, dif_pos inside, Prospect.promised, here]
  have taken := takesBack_removeAt removed
  simp only [TakesBack, prospect, dif_pos inside, here] at taken
  simp only [TakesBack, prospect, if_pos present, erased]
  exact taken

end Counterpart

/-- The counts consent to the reverse of what they have just accepted. -/
theorem perform_back {back : Amendment β} {again : β} {s t : Observed Predecessors}
    (attached : s.table.owner = some owner)
    (ended : amendment.perform Predecessors.observer s = .ok answer t)
    (takesBack : back.TakesBack again owner s.table.targets
      (amendment.prospect owner s.table.targets)) :
    ∃ u, back.perform Predecessors.observer t = .ok again u ∧
      u.table.targets = s.table.targets := by
  have conserved := Plan.carryOut_conserves amendment.faithful_plan attached
  rw [← perform_eq, Step.after_of_ok ended] at conserved
  rcases amendment.prospect_of_ok attached ended with
    ⟨settled, _⟩ | ⟨change, pending, accepted⟩
  · rw [settled] at takesBack
    exact takesBack.elim
  · rw [pending] at takesBack
    obtain ⟨u, returned, _, targets⟩ :=
      perform_of_pending (conserved.sameOwner.trans attached) takesBack
        (Predecessors.accepts_reverse accepted)
    exact ⟨u, returned, targets⟩

end Amendment

namespace Move

/-- A walk to the end makes every move of the targets. -/
theorem targets_of_walk {observer : Observer σ} {moves : List Move} {s t : Observed σ}
    (walked : walk observer moves s = .ok () t) :
    t.table.targets = result s.table.targets moves := by
  induction moves generalizing s with
  | nil =>
      cases walked
      rfl
  | cons move rest ih =>
      simp only [walk_cons, bind, EStateM.bind, make_apply] at walked
      rcases consent : observer move.change s.heard with ⟨_, next⟩ | ⟨fault, next⟩
      · rw [consent] at walked
        exact ih walked
      · rw [consent] at walked
        cases walked

/-- Edges from a wired block to wired blocks are never refused. -/
theorem walk_append_wired {owner : Label} {targets : List Label} {s : Observed Predecessors}
    (ownerWired : s.heard.isWired owner = true)
    (targetsWired : ∀ t ∈ targets, s.heard.isWired t = true) :
    ∃ t, walk Predecessors.observer (append owner targets) s = .ok () t := by
  induction targets generalizing s with
  | nil => exact ⟨s, rfl⟩
  | cons target rest ih =>
      obtain ⟨known, knownRest⟩ := List.forall_mem_cons.mp targetsWired
      rcases make_cases ⟨⟨owner, none, some target⟩, (· ++ [target])⟩ s with
        ⟨u, made, taken, _⟩ | ⟨fault, _, _, refused, _⟩
      · have sameWired := Predecessors.isWired_observer taken
        simp only [← sameWired] at ownerWired knownRest
        obtain ⟨t, walked⟩ := ih ownerWired knownRest
        refine ⟨t, ?_⟩
        simp only [append, List.map_cons, walk_cons, bind, EStateM.bind, made]
        exact walked
      · have accepted : (⟨owner, none, some target⟩ : Change).verdict s.heard.isWired
            (s.heard.multiplicity · owner) = .ok () := by
          rw [Change.verdict_eq_ok]
          simp [Change.blocks, ownerWired, known]
        rw [← Predecessors.outcome_observer, Step.outcome_of_error refused] at accepted
        cases accepted

end Move

/-- The targets that left can all come back, for they are blocks still. -/
theorem JumpTable.extend_back {owner : Label} {s t : Observed Predecessors}
    (attached : s.table.owner = some owner) (ownerWired : s.heard.isWired owner = true)
    (targetsWired : ∀ t ∈ s.table.targets, s.heard.isWired t = true)
    (cleared : clear Predecessors.observer s = .ok () t) :
    ∃ u, extend Predecessors.observer s.table.targets t = .ok () u ∧
      u.table.targets = s.table.targets := by
  rw [Plan.clear_eq] at cleared
  have conserved := Plan.carryOut_conserves Plan.faithful_clear attached
  rw [Step.after_of_ok cleared] at conserved
  obtain ⟨moves, proposed, dropped⟩ := Plan.carryOut_eq_ok.mp cleared
  rw [Plan.propose_clear attached] at proposed
  cases proposed
  have empty : t.table.targets = [] := by
    rw [Move.targets_of_walk dropped, Move.result_dropAll_eq_drop, List.drop_length]
  simp only [← conserved.sameWired] at ownerWired targetsWired
  obtain ⟨u, returned⟩ := Move.walk_append_wired ownerWired targetsWired
  have attachedStill := conserved.sameOwner.trans attached
  have proposed := Plan.propose_extend attachedStill s.table.targets
  refine ⟨u, ?_, ?_⟩
  · rw [Plan.extend_eq]
    exact Plan.carryOut_eq_ok.mpr ⟨_, proposed, returned⟩
  · rw [Move.targets_of_walk returned, Move.result_append, empty, List.nil_append]

namespace Graph

variable {g h k : Graph} {b : Label}

/-- An update of a table succeeds on the table, and the graph takes both parts back. -/
theorem onTable_eq_ok {update : Step (Observed Predecessors) α} {answer : α} :
    onTable b update g = .ok answer h ↔
      ∃ table t, g.table b = .ok table ∧ update ⟨table, g.predecessors⟩ = .ok answer t ∧
        g.put b t = h := by
  unfold onTable
  rcases g.table b with fault | table
  · simp
  · rcases ended : update ⟨table, g.predecessors⟩ with t | t
    · simp [put, ended]
    · simp [ended]

/-- All that can be seen of a graph is as it was. A table may have got more room. -/
structure Restored (g k : Graph) : Prop where
  labels : k.labels = g.labels
  owners : ∀ p, (k.table p).map JumpTable.owner = (g.table p).map JumpTable.owner
  targets : ∀ p, k.targets p = g.targets p
  /-- Every multiplicity is the same, and so is every other answer of the counts. -/
  predecessors : k.predecessors = g.predecessors

/-- The step succeeds with this answer where the first one has led, and it leads back. -/
def LeadsBack (g h : Graph) (back : Step Graph β) (again : β) : Prop :=
  ∃ k, back h = .ok again k ∧ g.Restored k

/-- The counts are as far from the tables as they were. So within its frame an update is taken back
when the targets of its table are. -/
theorem Keeps.restored (kept : g.Keeps k) (framed : g.Framed b k)
    (same : k.targets b = g.targets b) : g.Restored k := by
  have targets (p : Label) : k.targets p = g.targets p := by
    by_cases here : p = b
    · rw [here, same]
    · simp only [Graph.targets, framed.others p here]
  exact {
    labels := framed.labels
    owners := fun p => by
      by_cases here : p = b
      · rw [here, framed.owned]
      · rw [framed.others p here]
    targets
    predecessors := by
      apply Predecessors.ext_multiplicity framed.wired
      intro target source
      have drift := kept.imbalance ⟨source, target⟩
      simp only [Graph.imbalance, recorded, occurrences, targets] at drift
      omega }

/-- Two updates of a table that end with its old targets are a way back. -/
theorem Sound.leadsBack {plan : Plan α} {back : Plan β} {answer : α} {again : β}
    {table : JumpTable} {t u : Observed Predecessors} (sound : g.Sound)
    (faithful : plan.Faithful) (backFaithful : back.Faithful) (found : g.table b = .ok table)
    (ended : plan.carryOut Predecessors.observer ⟨table, g.predecessors⟩ = .ok answer t)
    (returned : back.carryOut Predecessors.observer t = .ok again u)
    (same : u.table.targets = table.targets) :
    g.LeadsBack (g.put b t) (onTable b (back.carryOut Predecessors.observer)) again := by
  have inside := lt_size_of_table found
  have first : onTable b (plan.carryOut Predecessors.observer) g = .ok answer (g.put b t) :=
    onTable_eq_ok.mpr ⟨table, t, found, ended, rfl⟩
  have second : onTable b (back.carryOut Predecessors.observer) (g.put b t) =
      .ok again ((g.put b t).put b u) :=
    onTable_eq_ok.mpr ⟨t.table, u, table_put_self inside t, returned, rfl⟩
  have kept := sound.keeps_onTable faithful b
  have framed := sound.framed_onTable faithful b
  rw [Step.after_of_ok first] at kept framed
  have keptBack := kept.sound.keeps_onTable backFaithful b
  have framedBack := kept.sound.framed_onTable backFaithful b
  rw [Step.after_of_ok second] at keptBack framedBack
  refine ⟨_, second, (kept.trans keptBack).restored (framed.trans framedBack) ?_⟩
  rw [targets_put_self (by rwa [size_put]), same, targets_of_table found]

/-- An amendment of a graph answers as promised. -/
theorem Sound.promised_of_ok (sound : g.Sound) (amendment : Amendment α) {answer : α}
    (ended : onTable b (amendment.perform Predecessors.observer) g = .ok answer h) :
    (amendment.prospect b (g.targets b)).promised = .ok answer := by
  obtain ⟨table, t, found, updated, _⟩ := onTable_eq_ok.mp ended
  rw [targets_of_table found]
  exact Amendment.promised_of_ok (sound.owned b table found) updated

/-- An amendment and the one that takes it back leave the graph that was there before. -/
theorem Sound.amendment_leadsBack (sound : g.Sound) (amendment : Amendment α) (back : Amendment β)
    {answer : α} {again : β}
    (ended : onTable b (amendment.perform Predecessors.observer) g = .ok answer h)
    (takesBack : back.TakesBack again b (g.targets b) (amendment.prospect b (g.targets b))) :
    g.LeadsBack h (onTable b (back.perform Predecessors.observer)) again := by
  obtain ⟨table, t, found, updated, rfl⟩ := onTable_eq_ok.mp ended
  rw [targets_of_table found] at takesBack
  obtain ⟨u, returned, same⟩ :=
    Amendment.perform_back (sound.owned b table found) updated takesBack
  rw [Amendment.perform_eq] at updated returned ⊢
  exact sound.leadsBack amendment.faithful_plan back.faithful_plan found updated returned same

/-- Cleared targets come back by an extension. -/
theorem Sound.clear_leadsBack (sound : g.Sound)
    (cleared : onTable b (JumpTable.clear Predecessors.observer) g = .ok () h) :
    g.LeadsBack h (onTable b (JumpTable.extend Predecessors.observer (g.targets b))) () := by
  obtain ⟨table, t, found, updated, rfl⟩ := onTable_eq_ok.mp cleared
  have listed := targets_of_table found
  obtain ⟨u, returned, same⟩ := JumpTable.extend_back (sound.owned b table found)
    ((sound.wired b).mpr (lt_size_of_table found))
    (fun target present => (sound.wired target).mpr (sound.closed b target (listed ▸ present)))
    updated
  rw [Plan.clear_eq] at updated
  rw [Plan.extend_eq] at returned
  rw [listed, Plan.extend_eq]
  exact sound.leadsBack Plan.faithful_clear (Plan.faithful_extend _) found updated returned same

/-- Each update of the switch has a counterpart. Wherever the update succeeds, the counterpart does
so behind it, and it leads back. -/
structure Reversible (g : Graph) (b : Label) : Prop where
  push : ∀ target h,
    onTable b (JumpTable.push Predecessors.observer target) g = .ok () h →
      g.LeadsBack h
        (onTable b (JumpTable.removeAt Predecessors.observer (g.targets b).length)) target
  insert : ∀ index target h,
    onTable b (JumpTable.insert Predecessors.observer index target) g = .ok () h →
      g.LeadsBack h (onTable b (JumpTable.removeAt Predecessors.observer index)) target
  set : ∀ index target old h,
    onTable b (JumpTable.set Predecessors.observer index target) g = .ok old h →
      g.LeadsBack h (onTable b (JumpTable.set Predecessors.observer index old)) target
  removeAt : ∀ index old h,
    onTable b (JumpTable.removeAt Predecessors.observer index) g = .ok old h →
      g.LeadsBack h (onTable b (JumpTable.insert Predecessors.observer index old)) ()
  /-- The target comes back where it occurred first. -/
  remove : ∀ target h,
    onTable b (JumpTable.remove Predecessors.observer target) g = .ok true h →
      ∃ index, (g.targets b).idxOf? target = some index ∧
        g.LeadsBack h (onTable b (JumpTable.insert Predecessors.observer index target)) ()
  clear : ∀ h, onTable b (JumpTable.clear Predecessors.observer) g = .ok () h →
    g.LeadsBack h (onTable b (JumpTable.extend Predecessors.observer (g.targets b))) ()

/-- Whatever was reported to the counts before, each update that succeeds can be taken back. -/
theorem Disturbed.reversible (reached : g.Disturbed) (b : Label) : g.Reversible b where
  push target _ ended :=
    reached.sound.amendment_leadsBack (.push target) (.removeAt _) ended
      (Amendment.takesBack_push b target (g.targets b))
  insert index target _ ended :=
    reached.sound.amendment_leadsBack (.insert index target) (.removeAt index) ended
      (Amendment.takesBack_insert (reached.sound.promised_of_ok (.insert index target) ended))
  set index target old _ ended :=
    reached.sound.amendment_leadsBack (.set index target) (.set index old) ended
      (Amendment.takesBack_set (reached.sound.promised_of_ok (.set index target) ended))
  removeAt index old _ ended :=
    reached.sound.amendment_leadsBack (.removeAt index) (.insert index old) ended
      (Amendment.takesBack_removeAt (reached.sound.promised_of_ok (.removeAt index) ended))
  remove target _ ended := by
    have promised := reached.sound.promised_of_ok (.remove target) ended
    have present := List.isSome_idxOf?.mpr (Amendment.mem_of_promised promised)
    obtain ⟨index, found⟩ := Option.isSome_iff_exists.mp present
    exact ⟨index, found, reached.sound.amendment_leadsBack (.remove target) (.insert index target)
      ended (Amendment.takesBack_remove found)⟩
  clear _ cleared := reached.sound.clear_leadsBack cleared

/-- Of two listed edges one is counted. The first is removed, so the count is gone while the other
edge is listed still, and putting it back restores both. -/
theorem removal_of_last_count_leadsBack :
    let g := Step.after (onPredecessors (Predecessors.observer ⟨0, some 1, none⟩))
      (Request.after (.attachSwitch 0 (.ofList [2, 1, 1])) (ofSize 3))
    let h := Step.after (onTable 0 (JumpTable.remove Predecessors.observer 1)) g
    g.predecessors.into 1 = [(0, 1)] ∧ h.targets 0 = [2, 1] ∧ h.predecessors.into 1 = [] ∧
      g.LeadsBack h (onTable 0 (JumpTable.insert Predecessors.observer 1 1)) () := by
  intro g h
  have reached : g.Disturbed := .report _ (.request _ (.initial (.ofSize 3)))
  have removed : onTable 0 (JumpTable.remove Predecessors.observer 1) g = .ok true h :=
    Step.eq_ok_iff.mpr ⟨by decide, rfl⟩
  have first : (g.targets 0).idxOf? 1 = some 1 := by decide
  obtain ⟨index, found, back⟩ := (reached.reversible 0).remove 1 h removed
  obtain rfl : 1 = index := Option.some.inj (first.symm.trans found)
  exact ⟨by decide, by decide, by decide, back⟩

end Graph

end Switchyard
