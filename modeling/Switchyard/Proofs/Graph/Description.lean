import Switchyard.Proofs.Graph.Accounting
import Switchyard.Proofs.Graph.Declaration
import Switchyard.Proofs.Graph.Share
import Switchyard.Proofs.Reading
import Switchyard.Proofs.Text.Rows
import Mathlib.Algebra.Group.Nat.Defs
import Mathlib.Data.List.Perm.Basic

namespace Switchyard.Graph

/-- A first row of a keyword and a number that is not too large. -/
def Heads (row : List String) (size : Nat) : Prop :=
  ∃ word, row = ["blocks", word] ∧ Numeral.Spells word size ∧ size ≤ 2 ^ 20

/-- A row of a keyword, an owner, and any number of targets. -/
def Declares (row : List String) (switch : Declared) : Prop :=
  ∃ owner targets, row = "switch" :: owner :: targets ∧ Numeral.Spells owner switch.1 ∧
    List.Forall₂ Numeral.Spells targets switch.2

/-- The rows of a text are a header and a list of switches that fit together. -/
structure Describes (text : String) (size : Nat) (switches : List Declared) : Prop where
  written : ∃ header lines, Text.rows text = header :: lines ∧ Heads header size ∧
    List.Forall₂ Declares lines switches
  ownersInside : ∀ switch ∈ switches, switch.1 < size
  targetsInside : ∀ switch ∈ switches, ∀ t ∈ switch.2, t < size
  ownersDistinct : (owners switches).Nodup

/-- A graph of so many blocks whose switches are these and no others. -/
structure Depicts (g : Graph) (size : Nat) (switches : List Declared) : Prop where
  sized : g.size = size
  switched : ∀ switch ∈ switches, ∃ table, g.table switch.1 = .ok table ∧
    table.owner = some switch.1 ∧ table.targets = switch.2
  plain : ∀ b < size, b ∉ owners switches → g.table b = .error (.illegal (.notSwitch b))
  counted : ∀ switch ∈ switches, ∀ t,
    g.predecessors.multiplicity t switch.1 = switch.2.count t
  uncounted : ∀ b ∉ owners switches, ∀ t, g.predecessors.multiplicity t b = 0

variable {g h k : Graph} {size : Nat} {switch : Declared} {switches others : List Declared}
  {line : Text.Line} {lines : List Text.Line} {text : String}

/-- A header is read when its row is one. -/
theorem readHeader_eq_ok : readHeader line = .ok size ↔ Heads line.words size := by
  unfold readHeader Heads
  generalize line.words = row
  split
  · next word =>
    simp only [Reading.bind_eq_ok, Reading.mapError_eq_ok, Role.read_eq_ok]
    constructor
    · rintro ⟨count, spelled, accepted⟩
      split at accepted
      · next small =>
        cases accepted
        exact ⟨word, rfl, spelled, small⟩
      · cases accepted
    · rintro ⟨_, same, spelled, small⟩
      cases same
      exact ⟨size, spelled, if_pos small⟩
  · next other =>
    constructor
    · rintro ⟨⟩
    · rintro ⟨word, same, _⟩
      exact absurd same (other word)

/-- A switch is read when its row declares it. -/
theorem readSwitch_eq_ok : readSwitch line = .ok switch ↔ Declares line.words switch := by
  unfold readSwitch Declares
  generalize line.words = row
  split
  · simp
  · next owner targets =>
    simp only [Reading.bind_eq_ok, Reading.mapError_eq_ok, Reading.mapM_eq_ok, Role.read_eq_ok,
      pure, Except.pure, Except.ok.injEq]
    constructor
    · rintro ⟨b, ownerSpelled, ts, targetsSpelled, rfl⟩
      exact ⟨owner, targets, rfl, ownerSpelled, targetsSpelled⟩
    · rintro ⟨_, _, same, ownerSpelled, targetsSpelled⟩
      cases same
      exact ⟨switch.1, ownerSpelled, switch.2, targetsSpelled, rfl⟩
  · next other =>
    constructor
    · rintro ⟨⟩
    · rintro ⟨owner, targets, same, _⟩
      exact absurd same (other owner targets)

/-- Lines that are accepted one after the other declare switches that are admitted together. The
induction is on the lines that are left. -/
theorem Sound.admits_of_declarations (sound : g.Sound) (declared : lines.foldlM declare g = .ok h) :
    ∃ switches, List.Forall₂ Declares (lines.map Text.Line.words) switches ∧
      g.Admits switches ∧ g.Gains switches h := by
  induction lines generalizing g with
  | nil =>
      cases declared
      exact ⟨[], .nil, admits_nil h, Gains.refl h⟩
  | cons line rest ih =>
      rw [List.foldlM_cons, Reading.bind_eq_ok] at declared
      obtain ⟨k, first, later⟩ := declared
      obtain ⟨switch, written, attached⟩ := declare_eq_ok.mp first
      have declares := readSwitch_eq_ok.mp written
      obtain ⟨fits, counts, rfl⟩ := sound.fits_of_attachSwitch attached
      obtain ⟨others, othersWritten, admitted, gained⟩ :=
        ih (sound.keeps_declare first).sound later
      exact ⟨switch :: others, .cons declares othersWritten,
        (admits_cons counts).mpr ⟨fits, admitted⟩, gained.cons fits (fits.fresh admitted)⟩

/-- Switches that are admitted together are accepted in the order of their lines. -/
theorem Sound.declarations_of_admits (sound : g.Sound)
    (written : List.Forall₂ Declares (lines.map Text.Line.words) switches)
    (admitted : g.Admits switches) :
    ∃ h, lines.foldlM declare g = .ok h ∧ g.Gains switches h := by
  induction lines generalizing g switches with
  | nil =>
      cases written
      exact ⟨g, rfl, Gains.refl g⟩
  | cons line rest ih =>
      obtain ⟨switch, others, first, later, rfl⟩ := List.forall₂_cons_left_iff.mp written
      have fits := admitted.fits switch List.mem_cons_self
      obtain ⟨counts, attached⟩ := sound.attachSwitch_of_fits fits
      have declared := declare_eq_ok.mpr ⟨switch, readSwitch_eq_ok.mpr first, attached⟩
      have othersAdmitted := ((admits_cons counts).mp admitted).2
      obtain ⟨h, ended, gained⟩ := ih (sound.keeps_declare declared).sound later othersAdmitted
      refine ⟨h, ?_, gained.cons fits (fits.fresh othersAdmitted)⟩
      rw [List.foldlM_cons, Reading.bind_eq_ok]
      exact ⟨_, declared, ended⟩

/-- Among plain blocks a switch fits when its labels are in range. -/
theorem fits_ofSize :
    (ofSize size).Fits switch ↔ switch.1 < size ∧ ∀ t ∈ switch.2, t < size := by
  constructor
  · intro fits
    exact ⟨table_ofSize_eq_notSwitch.mp fits.plain, size_ofSize size ▸ fits.closed⟩
  · rintro ⟨inside, closed⟩
    exact ⟨table_ofSize_eq_notSwitch.mpr inside, (size_ofSize size).symm ▸ closed⟩

/-- A text that is read describes a graph, and its switches are gained by plain blocks. -/
theorem describes_of_read (described : read text = .ok g) :
    ∃ size switches, Describes text size switches ∧ (ofSize size).Gains switches g := by
  obtain ⟨header, lines, size, split, headed, declared⟩ := read_eq_ok.mp described
  obtain ⟨switches, written, admitted, gained⟩ :=
    (keeps_ofSize size).sound.admits_of_declarations declared
  refine ⟨size, switches, ⟨⟨header.words, lines.map Text.Line.words, ?_,
    readHeader_eq_ok.mp headed, written⟩, ?_, ?_, admitted.distinct⟩, gained⟩
  · rw [← Text.words_significant, split, List.map_cons]
  · intro switch present
    exact (fits_ofSize.mp (admitted.fits switch present)).1
  · intro switch present
    exact (fits_ofSize.mp (admitted.fits switch present)).2

/-- A text that describes a graph is read, whatever the order of its switches. -/
theorem read_of_describes (described : Describes text size switches) :
    ∃ g, read text = .ok g ∧ (ofSize size).Gains switches g := by
  obtain ⟨row, rows, split, headed, written⟩ := described.written
  rw [← Text.words_significant, List.map_eq_cons_iff] at split
  obtain ⟨header, lines, split, rfl, rfl⟩ := split
  have admitted : (ofSize size).Admits switches := {
    fits := fun switch present => fits_ofSize.mpr
      ⟨described.ownersInside switch present, described.targetsInside switch present⟩
    distinct := described.ownersDistinct }
  obtain ⟨g, declared, gained⟩ :=
    (keeps_ofSize size).sound.declarations_of_admits written admitted
  have counted := readHeader_eq_ok.mpr headed
  exact ⟨g, read_eq_ok.mpr ⟨header, lines, size, split, counted, declared⟩, gained⟩

/-- In a graph that was read the counts follow from the tables. -/
theorem Accounted.depicts (accounted : g.Accounted) (gained : (ofSize size).Gains switches g) :
    g.Depicts size switches where
  sized := gained.sizes.trans (size_ofSize size)
  switched switch present := ⟨declaredTable switch, gained.gained switch present, rfl, rfl⟩
  plain b inside absent := (gained.kept b absent).trans (table_ofSize_eq_notSwitch.mpr inside)
  counted switch present t := by
    rw [accounted.counted, targets_of_table (gained.gained switch present)]
    rfl
  uncounted b absent t := by
    have same : g.targets b = (ofSize size).targets b := by
      simp only [targets, gained.kept b absent]
    rw [accounted.counted, same, targets_ofSize, List.count_nil]

/-- The same switches make the same graph, for its counts are those of its tables. -/
theorem Gains.eq_of_reachable (left : g.Reachable) (right : h.Reachable)
    (mine : k.Gains switches g) (yours : k.Gains switches h) : g = h := by
  have tables (b : Label) : g.table b = h.table b := by
    by_cases declared : b ∈ owners switches
    · obtain ⟨switch, present, rfl⟩ := List.mem_map.mp declared
      rw [mine.gained switch present, yours.gained switch present]
    · rw [mine.kept b declared, yours.kept b declared]
  apply left.keeps.sound.eq_of_sameShare right.keeps.sound
  intro b
  refine ⟨mine.sizes.trans yours.sizes.symm, tables b, fun t => ?_⟩
  rw [left.accounted.counted, right.accounted.counted]
  simp only [targets, tables]

/-- A graph that was read is reachable. -/
theorem reachable_of_read (described : read text = .ok g) : g.Reachable :=
  .initial (.read described)

section Order

variable {other : String} {header : List String} {mine yours : List (List String)}

/-- Rows behind the first one describe the same switches in any order. -/
theorem Describes.reorder (described : Describes text size switches)
    (here : Text.rows text = header :: mine) (there : Text.rows other = header :: yours)
    (same : mine.Perm yours) :
    ∃ others, switches.Perm others ∧ Describes other size others := by
  obtain ⟨_, _, split, headed, written⟩ := described.written
  rw [here] at split
  cases split
  obtain ⟨others, writtenThere, reordered⟩ := List.perm_comp_forall₂ same.symm written
  refine ⟨others, reordered.symm, ⟨header, yours, there, headed, writtenThere⟩, ?_, ?_, ?_⟩
  · intro switch present
    exact described.ownersInside switch (reordered.mem_iff.mp present)
  · intro switch present
    exact described.targetsInside switch (reordered.mem_iff.mp present)
  · exact (reordered.map Prod.fst).nodup_iff.mpr described.ownersDistinct

/-- The order in which the switches are declared plays no part. -/
theorem read_of_reorder (here : Text.rows text = header :: mine)
    (there : Text.rows other = header :: yours) (same : mine.Perm yours)
    (described : read text = .ok g) : read other = .ok g := by
  obtain ⟨size, switches, written, gained⟩ := describes_of_read described
  obtain ⟨others, reordered, writtenThere⟩ := written.reorder here there same
  obtain ⟨h, again, gainedThere⟩ := read_of_describes writtenThere
  have equal : g = h := gained.eq_of_reachable (reachable_of_read described)
    (reachable_of_read again) (gainedThere.perm reordered.symm)
  exact equal ▸ again

end Order

/-- A text is read exactly when it describes a graph, and that graph is the one it describes. Rows
behind the first one may stand in any order. -/
theorem reads_what_is_described (text : String) :
    ((∃ g, read text = .ok g) ↔ ∃ size switches, Describes text size switches) ∧
      (∀ g size switches, read text = .ok g → Describes text size switches →
        g.Depicts size switches) ∧
      ∀ (other : String) (header : List String) (mine yours : List (List String)),
        Text.rows text = header :: mine → Text.rows other = header :: yours → mine.Perm yours →
          ∀ g, read text = .ok g ↔ read other = .ok g := by
  refine ⟨⟨?_, ?_⟩, ?_, ?_⟩
  · rintro ⟨g, described⟩
    obtain ⟨size, switches, written, _⟩ := describes_of_read described
    exact ⟨size, switches, written⟩
  · rintro ⟨size, switches, written⟩
    obtain ⟨g, described, _⟩ := read_of_describes written
    exact ⟨g, described⟩
  · intro g size switches described written
    obtain ⟨h, again, gained⟩ := read_of_describes written
    obtain rfl : h = g := by simpa [described, eq_comm] using again
    exact (reachable_of_read described).accounted.depicts gained
  · intro other header mine yours here there same g
    exact ⟨read_of_reorder here there same, read_of_reorder there here same.symm⟩

/-- Block 2 leads to itself and twice to block 0, which ends in a switch without targets. -/
theorem reordered_switches_are_read :
    ∃ g, read "blocks 3\nswitch 2 0 2 +0 # twice\n\n\tswitch 0\n" = .ok g ∧
      read "\nblocks 3\r\nswitch 0\r\nswitch 2 0 2 +0" = .ok g ∧
        g.Depicts 3 [(2, [0, 2, 0]), (0, [])] := by
  have zero : Numeral.Spells "0" 0 := Numeral.read_eq_ok.mp (by decide)
  have signed : Numeral.Spells "+0" 0 := Numeral.read_eq_ok.mp (by decide)
  have two : Numeral.Spells "2" 2 := Numeral.read_eq_ok.mp (by decide)
  have three : Numeral.Spells "3" 3 := Numeral.read_eq_ok.mp (by decide)
  have loop : Declares ["switch", "2", "0", "2", "+0"] (2, [0, 2, 0]) :=
    ⟨"2", ["0", "2", "+0"], rfl, two, .cons zero (.cons two (.cons signed .nil))⟩
  have bare : Declares ["switch", "0"] (0, []) := ⟨"0", [], rfl, zero, .nil⟩
  have described : Describes "blocks 3\nswitch 2 0 2 +0 # twice\n\n\tswitch 0\n" 3
      [(2, [0, 2, 0]), (0, [])] := {
    written := ⟨["blocks", "3"], [["switch", "2", "0", "2", "+0"], ["switch", "0"]], by decide,
      ⟨"3", rfl, three, by decide⟩, .cons loop (.cons bare .nil)⟩
    ownersInside := by decide
    targetsInside := by decide
    ownersDistinct := by decide }
  obtain ⟨exactly, depicted, reordered⟩ :=
    reads_what_is_described "blocks 3\nswitch 2 0 2 +0 # twice\n\n\tswitch 0\n"
  obtain ⟨g, found⟩ := exactly.mpr ⟨3, _, described⟩
  have swapped := reordered "\nblocks 3\r\nswitch 0\r\nswitch 2 0 2 +0" ["blocks", "3"]
    [["switch", "2", "0", "2", "+0"], ["switch", "0"]]
    [["switch", "0"], ["switch", "2", "0", "2", "+0"]] (by decide) (by decide) (by decide) g
  exact ⟨g, found, swapped.mp found, depicted g 3 _ found described⟩

end Switchyard.Graph
