import Switchyard.Proofs.Graph.Attachment
import Switchyard.Proofs.Graph.Description
import Switchyard.Proofs.Text.Lines

namespace Switchyard

/-- The line that the message of a fault starts with. -/
def DescriptionFault.line? : DescriptionFault → Option Nat
  | .empty | .headerMissing | .badCount _ | .tooManyBlocks _ | .badOwner _ => none
  | .unknownDirective line _ | .ownerMissing line | .badTarget line _ | .refused line _ => some line

/-- A fault that names a line says so in front of its reason. -/
theorem DescriptionFault.exists_reason {fault : DescriptionFault} {line : Nat}
    (named : fault.line? = some line) :
    ∃ reason, fault.message = "line " ++ toString line ++ ": " ++ reason := by
  cases fault with
  | empty | headerMissing | badCount | tooManyBlocks | badOwner => cases named
  | unknownDirective line keyword =>
      cases named
      have parted : ": unknown directive `" = ": " ++ "unknown directive `" := by decide
      refine ⟨"unknown directive `" ++ keyword ++ "'", ?_⟩
      calc Text.Line.label line ++ ": unknown directive `" ++ keyword ++ "'"
          = Text.Line.label line ++ (": " ++ "unknown directive `") ++ keyword ++ "'" := by
            rw [← parted]
        _ = Text.Line.label line ++ ": " ++ ("unknown directive `" ++ keyword ++ "'") := by
            simp only [String.append_assoc]
  | ownerMissing line =>
      cases named
      have parted : ": switch without a block" = ": " ++ "switch without a block" := by decide
      exact ⟨_, (congrArg (Text.Line.label line ++ ·) parted).trans String.append_assoc.symm⟩
  | badTarget line bad =>
      cases named
      exact ⟨bad.message, rfl⟩
  | refused line cause =>
      cases named
      exact ⟨cause.account, rfl⟩

namespace Graph

/-- Below rows that declare these switches the row declares one more. -/
def Continues (size : Nat) (switches : List Declared) (row : List String) : Prop :=
  ∃ switch, Declares row switch ∧ switch.1 < size ∧ switch.1 ∉ owners switches ∧
    ∀ t ∈ switch.2, t < size

/-- Why the row of a line cannot stand below rows that declare these switches. Each cause counts
only if none of those before it applies. -/
inductive Rejects (size : Nat) (switches : List Declared) (number : Nat) (row : List String) :
    DescriptionFault → Prop where
  | keyword {keyword : String} {rest : List String} (written : row = keyword :: rest)
      (other : keyword ≠ "switch") :
      Rejects size switches number row (.unknownDirective number keyword)
  | bare (written : row = ["switch"]) : Rejects size switches number row (.ownerMissing number)
  | owner {word : String} {targets : List String} {cause : Numeral.Fault}
      (written : row = "switch" :: word :: targets) (unread : Numeral.read word = .error cause) :
      Rejects size switches number row (.badOwner ⟨.label, word, cause⟩)
  /-- The first target that is no number is named. -/
  | target {owner word : String} {b : Label} {front back : List String} {cause : Numeral.Fault}
      (written : row = "switch" :: owner :: (front ++ word :: back))
      (spelled : Numeral.Spells owner b)
      (readable : ∀ earlier ∈ front, ∃ t, Numeral.Spells earlier t)
      (unread : Numeral.read word = .error cause) :
      Rejects size switches number row (.badTarget number ⟨.label, word, cause⟩)
  | stranger {switch : Declared} (declares : Declares row switch) (outside : size ≤ switch.1) :
      Rejects size switches number row (.refused number (.illegal (.notWired switch.1)))
  | again {switch : Declared} (declares : Declares row switch)
      (taken : switch.1 ∈ owners switches) :
      Rejects size switches number row (.refused number (.illegal (.alreadyAttached switch.1)))
  /-- The first target that is no block is named. -/
  | stray {switch : Declared} {stray : Label} (declares : Declares row switch)
      (inside : switch.1 < size) (fresh : switch.1 ∉ owners switches)
      (first : switch.2.find? (size ≤ ·) = some stray) :
      Rejects size switches number row (.refused number (.illegal (.notWired stray)))

/-- The first row of the text is an accepted header. -/
def Headed (text : String) : Prop :=
  ∃ header rows size, Text.rows text = header :: rows ∧ Heads header size

/-- The first line that cannot stand where it does. The lines above it describe a graph. -/
structure BreaksAt (text above line : String) : Prop where
  stands : Text.Stands text above line
  speaks : Text.content line.toList ≠ []
  described : ∃ size switches, Describes above size switches ∧
    ¬ Continues size switches (Text.row line.toList)

/-- A row whose second word should be the owner but is no number. -/
def Unowned (row : List String) (owner : String) (cause : Numeral.Fault) : Prop :=
  ∃ targets, row = "switch" :: owner :: targets ∧ Numeral.read owner = .error cause

/-- The line at this place of a text. -/
def lineAt (above line : String) : Text.Line :=
  ⟨1 + above.toList.count '\n', Text.content line.toList⟩

variable {g : Graph} {size number : Nat} {switch : Declared} {switches : List Declared}
  {row : List String} {line : Text.Line} {back : List Text.Line} {fault : DescriptionFault}
  {text above : String}

/-- A line that cannot be read declares nothing. -/
theorem declare_of_unread (unread : readSwitch line = .error fault) :
    g.declare line = .error fault := by
  rw [declare, unread]
  rfl

/-- The keyword is judged first. -/
theorem readSwitch_of_keyword {keyword : String} {rest : List String}
    (written : line.words = keyword :: rest) (other : keyword ≠ "switch") :
    readSwitch line = .error (.unknownDirective line.number keyword) := by
  rw [readSwitch, written]
  split
  · next same => exact absurd (List.cons.inj same).1 other
  · next same => exact absurd (List.cons.inj same).1 other
  · rfl

/-- A keyword alone lacks an owner. -/
theorem readSwitch_of_bare (written : line.words = ["switch"]) :
    readSwitch line = .error (.ownerMissing line.number) := by
  simp only [readSwitch, written]

/-- An owner that is no number is the one fault without a line. -/
theorem readSwitch_of_owner {word : String} {targets : List String} {cause : Numeral.Fault}
    (written : line.words = "switch" :: word :: targets)
    (unread : Numeral.read word = .error cause) :
    readSwitch line = .error (.badOwner ⟨.label, word, cause⟩) := by
  rw [readSwitch, written]
  simp only [Role.read, unread]
  rfl

/-- Among the targets the first one that is no number is named. -/
theorem readSwitch_of_target {owner word : String} {b : Label} {front back : List String}
    {cause : Numeral.Fault}
    (written : line.words = "switch" :: owner :: (front ++ word :: back))
    (spelled : Numeral.Spells owner b)
    (readable : ∀ earlier ∈ front, ∃ t, Numeral.Spells earlier t)
    (unread : Numeral.read word = .error cause) :
    readSwitch line = .error (.badTarget line.number ⟨.label, word, cause⟩) := by
  rw [readSwitch, written]
  simp only [Reading.bind_eq_error, Reading.mapError_eq_error, Reading.mapError_eq_ok,
    Role.read_eq_ok, Reading.mapM_eq_error]
  refine .inr ⟨b, spelled, .inl ⟨front, word, back, rfl, readable, _, ?_, rfl⟩⟩
  rw [Role.read, unread]
  rfl

/-- A switch that the graph refuses is a fault of its line. -/
theorem declare_of_refused {cause : Fault} (declares : Declares line.words switch)
    (refused : attachSwitch switch.1 (.gather switch.2) g = .error cause g) :
    g.declare line = .error (.refused line.number cause) := by
  rw [declare, readSwitch_eq_ok.mpr declares]
  simp only [bind, Except.bind, refused]
  rfl

section Above

variable (gained : (ofSize size).Gains switches g)
include gained

/-- A block that no switch has claimed is still plain. -/
theorem Gains.plain_of_fresh {b : Label} (inside : b < size) (fresh : b ∉ owners switches) :
    g.table b = .error (.illegal (.notSwitch b)) :=
  (gained.kept b fresh).trans (table_ofSize_eq_notSwitch.mpr inside)

/-- Above the line there are the declared switches and plain blocks, and nothing else. -/
theorem Gains.fits_iff :
    g.Fits switch ↔
      switch.1 < size ∧ switch.1 ∉ owners switches ∧ ∀ t ∈ switch.2, t < size := by
  have sized : g.size = size := gained.sizes.trans (size_ofSize size)
  constructor
  · intro fits
    refine ⟨sized ▸ fits.inside, ?_, sized ▸ fits.closed⟩
    intro taken
    obtain ⟨earlier, present, same⟩ := List.mem_map.mp taken
    have switched := gained.gained earlier present
    rw [same, fits.plain] at switched
    cases switched
  · rintro ⟨inside, fresh, closed⟩
    exact ⟨gained.plain_of_fresh inside fresh, sized ▸ closed⟩

/-- A row that continues the others is declared. -/
theorem Sound.declare_of_continues (sound : g.Sound)
    (continues : Continues size switches line.words) : ∃ h, g.declare line = .ok h := by
  obtain ⟨switch, declares, fits⟩ := continues
  obtain ⟨counts, attached⟩ := sound.attachSwitch_of_fits (gained.fits_iff.mpr fits)
  exact ⟨_, declare_eq_ok.mpr ⟨switch, readSwitch_eq_ok.mpr declares, attached⟩⟩

/-- What keeps the switch of a row from being declared keeps its table from being attached. -/
theorem Gains.misfit_of_rejects {violation : Violation}
    (rejects : Rejects size switches number row (.refused number (.illegal violation))) :
    ∃ switch, Declares row switch ∧ g.Misfit switch.1 (.gather switch.2) violation := by
  have sized : g.size = size := gained.sizes.trans (size_ofSize size)
  cases rejects with
  | @stranger switch declares outside =>
      exact ⟨switch, declares, .stranger (sized ▸ outside)⟩
  | @again switch declares taken =>
      obtain ⟨earlier, present, same⟩ := List.mem_map.mp taken
      exact ⟨switch, declares, .switched (same ▸ gained.gained earlier present)⟩
  | @stray switch stray declares inside fresh first =>
      have plain := gained.plain_of_fresh inside fresh
      exact ⟨switch, declares, .stray plain (sized.symm ▸ first)⟩

/-- A row that is rejected gives its fault, whatever is counted. -/
theorem Sound.declare_of_rejects (sound : g.Sound)
    (rejects : Rejects size switches line.number line.words fault) :
    g.declare line = .error fault := by
  have refused {violation : Violation} (rejects : Rejects size switches line.number line.words
      (.refused line.number (.illegal violation))) :
      g.declare line = .error (.refused line.number (.illegal violation)) := by
    obtain ⟨switch, declares, misfit⟩ := gained.misfit_of_rejects rejects
    exact declare_of_refused declares (sound.attachSwitch_of_misfit misfit)
  cases rejects with
  | keyword written other => exact declare_of_unread (readSwitch_of_keyword written other)
  | bare written => exact declare_of_unread (readSwitch_of_bare written)
  | owner written unread => exact declare_of_unread (readSwitch_of_owner written unread)
  | target written spelled readable unread =>
      exact declare_of_unread (readSwitch_of_target written spelled readable unread)
  | stranger declares outside => exact refused (.stranger declares outside)
  | again declares taken => exact refused (.again declares taken)
  | stray declares inside fresh first => exact refused (.stray declares inside fresh first)

end Above

/-- A row of numbers can stand where it does, or one of the numbers is to blame. -/
theorem continues_or_rejects_of_declares (declares : Declares row switch) :
    Continues size switches row ∨ ∃ fault, Rejects size switches number row fault := by
  by_cases outside : size ≤ switch.1
  · exact .inr ⟨_, .stranger declares outside⟩
  by_cases taken : switch.1 ∈ owners switches
  · exact .inr ⟨_, .again declares taken⟩
  have inside := Nat.lt_of_not_le outside
  cases first : switch.2.find? (size ≤ ·) with
  | some stray => exact .inr ⟨_, .stray declares inside taken first⟩
  | none => exact .inl ⟨switch, declares, inside, taken, by simpa using first⟩

/-- Words are numbers, or there is a first one among them that is none. -/
theorem spelled_or_unread (words : List String) :
    (∃ values, List.Forall₂ Numeral.Spells words values) ∨
      ∃ front word back cause, words = front ++ word :: back ∧
        (∀ earlier ∈ front, ∃ t, Numeral.Spells earlier t) ∧
          Numeral.read word = .error cause := by
  cases reading : words.mapM Numeral.read with
  | ok values =>
      simp only [Reading.mapM_eq_ok, Numeral.read_eq_ok] at reading
      exact .inl ⟨values, reading⟩
  | error cause =>
      simp only [Reading.mapM_eq_error, Numeral.read_eq_ok] at reading
      obtain ⟨front, word, back, found⟩ := reading
      exact .inr ⟨front, word, back, cause, found⟩

/-- Every row stands where it can, or there is a cause for its rejection. -/
theorem continues_or_rejects (number : Nat) (present : row ≠ []) :
    Continues size switches row ∨ ∃ fault, Rejects size switches number row fault := by
  obtain ⟨keyword, rest, rfl⟩ := List.exists_cons_of_ne_nil present
  by_cases other : keyword ≠ "switch"
  · exact .inr ⟨_, .keyword rfl other⟩
  obtain rfl : keyword = "switch" := Decidable.of_not_not other
  rcases rest with _ | ⟨owner, targets⟩
  · exact .inr ⟨_, .bare rfl⟩
  cases read : Numeral.read owner with
  | error cause => exact .inr ⟨_, .owner rfl read⟩
  | ok b =>
      have spelled := Numeral.read_eq_ok.mp read
      rcases spelled_or_unread targets with ⟨ts, spelledToo⟩ | ⟨front, word, back, cause, found⟩
      · have declares : Declares ("switch" :: owner :: targets) (b, ts) :=
          ⟨owner, targets, rfl, spelled, spelledToo⟩
        exact continues_or_rejects_of_declares declares
      · obtain ⟨rfl, readable, unread⟩ := found
        exact .inr ⟨_, .target rfl spelled readable unread⟩

/-- Lines are read on from the graph that the lines above them describe. -/
theorem read_eq_foldlM (described : read above = .ok g)
    (split : Text.significant text = Text.significant above ++ back) :
    read text = back.foldlM declare g := by
  obtain ⟨header, lines, size, upper, counted, declared⟩ := read_eq_ok.mp described
  rw [read, split, upper, List.cons_append]
  simp only [counted, bind, Except.bind]
  rw [List.foldlM_append, declared]
  rfl

/-- The words of a line are its row. -/
theorem words_lineAt (above line : String) : (lineAt above line).words = Text.row line.toList :=
  Text.words_content _ _

/-- A line that says something has words. -/
theorem row_ne_nil {line : String} (speaks : Text.content line.toList ≠ []) :
    Text.row line.toList ≠ [] := by
  rwa [ne_eq, ← List.isEmpty_iff, ← Text.isEmpty_content, List.isEmpty_iff]

/-- A text that has a header but is not read has a line that the graph above it refuses. -/
theorem Headed.exists_refused (headed : Headed text) (failed : read text = .error fault) :
    ∃ above line g, Text.Stands text above line ∧ Text.content line.toList ≠ [] ∧
      read above = .ok g ∧ g.declare (lineAt above line) = .error fault := by
  obtain ⟨row, rows, size, split, heads⟩ := headed
  rw [← Text.words_significant, List.map_eq_cons_iff] at split
  obtain ⟨header, lines, split, rfl, rfl⟩ := split
  have counted := readHeader_eq_ok.mpr heads
  have folded : lines.foldlM declare (ofSize size) = .error fault := by
    simpa only [read, split, counted, bind, Except.bind] using failed
  obtain ⟨front, part, back, g, rfl, declared, refused⟩ := Reading.foldlM_eq_error.mp folded
  -- The header belongs to the lines above, which are a description of their own.
  rw [← List.cons_append] at split
  obtain ⟨above, line, stands, upper, rfl, speaks⟩ := Text.exists_stands split
  have described := read_eq_ok.mpr ⟨header, front, size, upper, counted, declared⟩
  exact ⟨above, line, g, stands, speaks, described, refused⟩

/-- A line that the graph above it cannot take breaks the text. -/
theorem breaksAt_of_refused {line : String} (stands : Text.Stands text above line)
    (speaks : Text.content line.toList ≠ []) (described : read above = .ok g)
    (refused : g.declare (lineAt above line) = .error fault) : BreaksAt text above line := by
  obtain ⟨size, switches, describes, gained⟩ := describes_of_read described
  refine ⟨stands, speaks, size, switches, describes, fun continues => ?_⟩
  rw [← words_lineAt above line] at continues
  have sound := (reachable_of_read described).keeps.sound
  obtain ⟨h, declared⟩ := sound.declare_of_continues gained continues
  rw [declared] at refused
  cases refused

/-- The fault of a text that breaks is the cause for which the line is rejected. -/
theorem BreaksAt.exists_rejects {line : String} (breaks : BreaksAt text above line) :
    ∃ size switches fault, Describes above size switches ∧
      Rejects size switches (1 + above.toList.count '\n') (Text.row line.toList) fault ∧
        read text = .error fault := by
  obtain ⟨stands, speaks, size, switches, describes, unfit⟩ := breaks
  obtain ⟨g, described, gained⟩ := read_of_describes describes
  obtain ⟨fault, rejects⟩ := (continues_or_rejects (1 + above.toList.count '\n')
    (row_ne_nil speaks)).resolve_left unfit
  refine ⟨size, switches, fault, describes, rejects, ?_⟩
  rw [← words_lineAt above line] at rejects
  have sound := (reachable_of_read described).keeps.sound
  have refused : g.declare (lineAt above line) = .error fault :=
    sound.declare_of_rejects gained rejects
  obtain ⟨back, split⟩ := stands.significant_eq speaks
  rw [read_eq_foldlM described split, List.foldlM_cons, Reading.bind_eq_error]
  exact .inl refused

/-- An owner that spells a number is not to blame. -/
theorem not_unowned_of_spells {owner : String} {targets : List String} {b : Label}
    (written : row = "switch" :: owner :: targets) (spelled : Numeral.Spells owner b) :
    ∀ word cause, ¬ Unowned row word cause := by
  rintro word cause ⟨_, again, unread⟩
  rw [written] at again
  cases again
  rw [Numeral.read_eq_ok.mpr spelled] at unread
  cases unread

/-- A row that declares a switch has a good owner. -/
theorem Declares.not_unowned (declares : Declares row switch) :
    ∀ word cause, ¬ Unowned row word cause := by
  obtain ⟨owner, targets, written, spelled, _⟩ := declares
  exact not_unowned_of_spells written spelled

/-- A line is rejected for its owner without its number, and with its number for all else. -/
theorem Rejects.message_cases (rejects : Rejects size switches number row fault) :
    (∃ owner cause, Unowned row owner cause ∧
      fault.message = "invalid block label `" ++ owner ++ "': " ++ cause.message) ∨
    (∀ owner cause, ¬ Unowned row owner cause) ∧
      ∃ reason, fault.message = "line " ++ toString number ++ ": " ++ reason := by
  cases rejects with
  | @keyword keyword rest written other =>
      refine .inr ⟨?_, DescriptionFault.exists_reason rfl⟩
      rintro owner cause ⟨targets, again, _⟩
      rw [written] at again
      exact other (List.cons.inj again).1
  | bare written =>
      refine .inr ⟨?_, DescriptionFault.exists_reason rfl⟩
      rintro owner cause ⟨targets, again, _⟩
      rw [written] at again
      cases again
  | @owner word targets cause written unread =>
      exact .inl ⟨word, cause, ⟨targets, written, unread⟩, rfl⟩
  | target written spelled readable unread =>
      exact .inr ⟨not_unowned_of_spells written spelled, DescriptionFault.exists_reason rfl⟩
  | stranger declares outside =>
      exact .inr ⟨declares.not_unowned, DescriptionFault.exists_reason rfl⟩
  | again declares taken =>
      exact .inr ⟨declares.not_unowned, DescriptionFault.exists_reason rfl⟩
  | stray declares inside fresh first =>
      exact .inr ⟨declares.not_unowned, DescriptionFault.exists_reason rfl⟩

/-- A refusal names the number of its own line. -/
theorem Rejects.number_eq {reported : Nat} {cause : Fault}
    (rejects : Rejects size switches number row (.refused reported cause)) :
    number = reported := by
  cases rejects <;> rfl

/-- A text with a header is read, or it has a first line that cannot stand where it does. Then the
fault is the cause for which this line is rejected, and its message starts with the number of the
line. Only the message for an owner that is no number does not. -/
theorem blames_first_bad_line (headed : Headed text) :
    ((∃ fault, read text = .error fault) ↔ ∃ above line, BreaksAt text above line) ∧
      ∀ fault above line, read text = .error fault → BreaksAt text above line →
        (∃ size switches, Describes above size switches ∧
          Rejects size switches (1 + above.toList.count '\n') (Text.row line.toList) fault) ∧
        ((∃ owner cause, Unowned (Text.row line.toList) owner cause ∧
            fault.message = "invalid block label `" ++ owner ++ "': " ++ cause.message) ∨
          (∀ owner cause, ¬ Unowned (Text.row line.toList) owner cause) ∧
            ∃ reason, fault.message =
              "line " ++ toString (1 + above.toList.count '\n') ++ ": " ++ reason) := by
  refine ⟨⟨?_, ?_⟩, ?_⟩
  · rintro ⟨fault, failed⟩
    obtain ⟨above, line, g, stands, speaks, described, refused⟩ := headed.exists_refused failed
    exact ⟨above, line, breaksAt_of_refused stands speaks described refused⟩
  · rintro ⟨above, line, breaks⟩
    obtain ⟨_, _, fault, _, _, failed⟩ := breaks.exists_rejects
    exact ⟨fault, failed⟩
  · intro fault above line failed breaks
    obtain ⟨size, switches, cause, describes, rejects, failedToo⟩ := breaks.exists_rejects
    obtain rfl : cause = fault := by simpa [failed, eq_comm] using failedToo
    exact ⟨⟨size, switches, describes, rejects⟩, rejects.message_cases⟩

/-- A comment, an empty line and the lines that are accepted are counted. The switch of block `0` is
declared twice. The line behind it is not looked at. -/
theorem fifth_line_is_to_blame :
    let text := "# two\nblocks 2\n\nswitch 0 1\r\n switch +0\nx"
    let fault : DescriptionFault := .refused 5 (.illegal (.alreadyAttached 0))
    Headed text ∧ read text = .error fault ∧
      fault.message = "line 5: illegal state: target list is already attached to block 0: " ++
        "target list is already attached to block 0" ∧
      ∃ above line, BreaksAt text above line ∧ 1 + above.toList.count '\n' = 5 := by
  intro text fault
  have headed : Headed text :=
    ⟨["blocks", "2"], [["switch", "0", "1"], ["switch", "+0"], ["x"]], 2, by decide, "2", rfl,
      Numeral.read_eq_ok.mp (by decide), by decide⟩
  have failed : read text = .error fault := Reading.fault?_eq_some.mp (by decide +kernel)
  obtain ⟨exactly, blamed⟩ := blames_first_bad_line headed
  obtain ⟨above, line, breaks⟩ := exactly.mp ⟨fault, failed⟩
  obtain ⟨⟨size, switches, _, rejects⟩, _⟩ := blamed fault above line failed breaks
  exact ⟨headed, failed, by decide, above, line, breaks, rejects.number_eq⟩

/-- An owner that is no number is told without its line. -/
theorem unreadable_owner_hides_line :
    ¬ ∀ text fault, Headed text → read text = .error fault →
      ∃ above line reason, BreaksAt text above line ∧
        fault.message = "line " ++ toString (1 + above.toList.count '\n') ++ reason := by
  intro named
  have headed : Headed "blocks 2\nswitch x 1" :=
    ⟨["blocks", "2"], [["switch", "x", "1"]], 2, by decide,
      "2", rfl, Numeral.read_eq_ok.mp (by decide), by decide⟩
  have failed : read "blocks 2\nswitch x 1" = .error (.badOwner ⟨.label, "x", .invalidDigit⟩) :=
    Reading.fault?_eq_some.mp (by decide +kernel)
  obtain ⟨above, line, reason, _, message⟩ := named _ _ headed failed
  change "invalid " ++ "block label" ++ " `" ++ "x" ++ "': " ++ _ = _ at message
  have first := congrArg (·.toList.head?) message
  simp at first

end Graph

end Switchyard
