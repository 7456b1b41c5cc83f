import Switchyard.Command.Run
import Switchyard.Command.World

namespace Switchyard.Command

/-- What a path gives to a reader. -/
inductive Source where
  | input
  | stored (bytes : ByteArray)

/-- Where a path takes what is written to it. -/
inductive Outlet where
  | printed
  | file (place : Place)
  /-- The device keeps nothing. -/
  | lost

/-- Directories and the terminal give nothing. -/
def Node.source? : Node → Option Source
  | .file content => some (.stored content)
  | .input => some .input
  | .output | .sink | .full => some (.stored ByteArray.empty)
  | .directory _ | .link _ | .terminal => none

/-- Directories, the terminal and a full device take nothing. -/
def Node.outlet? (place : Place) : Node → Option Outlet
  | .output => some .printed
  | .input | .sink => some .lost
  | .file _ | .link _ => some (.file place)
  | .directory _ | .terminal | .full => none

namespace World

/-- The later world has the same files and the same prints. Its input may be used up. -/
structure Kept (w later : World) : Prop where
  nodes : later.nodes = w.nodes
  here : later.here = w.here
  printed : later.printed = w.printed

/-- A path may name the input without a look at the files. -/
def source? (w : World) (path : String) : Option Source :=
  if isInputStream path then some .input
  else match w.resolve path with
    | .error _ => none
    | .ok place => (w.node? place).bind Node.source?

/-- The bytes of a source, as they are before anything is read. -/
def bytes (w : World) : Source → ByteArray
  | .input => w.input
  | .stored bytes => bytes

/-- A path may name the output without a look at the files. A new name in a directory is a file. -/
def outlet? (w : World) (path : String) : Option Outlet :=
  if isOutputStream path then some .printed
  else match w.outputPlace path with
    | .error _ => none
    | .ok place =>
        match w.node? place with
        | none => some (.file place)
        | some node => node.outlet? place

/-- The text has gone to the outlet, and all else is as before. -/
def Delivered (w : World) (text : String) (later : World) : Outlet → Prop
  | .printed =>
      later.nodes = w.nodes ∧ later.here = w.here ∧ later.printed = w.printed ++ text
  | .file place =>
      later.node? place = some (.file text.toUTF8) ∧
        (∀ other, other ≠ place → later.node? other = w.node? other) ∧
        later.here = w.here ∧ later.printed = w.printed
  | .lost => w.Kept later

variable {w later last : World} {path text : String} {place : Place}

theorem Kept.refl (w : World) : w.Kept w := ⟨rfl, rfl, rfl⟩

theorem Kept.trans (first : w.Kept later) (second : later.Kept last) : w.Kept last :=
  ⟨second.nodes.trans first.nodes, second.here.trans first.here,
    second.printed.trans first.printed⟩

theorem kept_drain (w : World) : w.Kept w.drain.2 := ⟨rfl, rfl, rfl⟩

section Kept

variable (kept : w.Kept later)
include kept

theorem Kept.node?_eq (place : Place) : later.node? place = w.node? place := by
  simp only [node?, kept.nodes]

theorem Kept.follow_eq (place : Place) : later.follow place = w.follow place := by
  simp only [follow, kept.node?_eq]

/-- All paths lead where they led. -/
theorem Kept.walk_eq (names : List String) (place : Place) :
    later.walk place names = w.walk place names := by
  induction names generalizing place with
  | nil => rfl
  | cons name rest ih => simp only [walk, kept.node?_eq, kept.follow_eq, ih]

/-- Every reader finds what it found. -/
theorem Kept.source?_eq (path : String) : later.source? path = w.source? path := by
  simp only [source?, resolve, start, kept.here, kept.walk_eq, kept.node?_eq]

/-- Every writer goes where it went. -/
theorem Kept.outlet?_eq (path : String) : later.outlet? path = w.outlet? path := by
  simp only [outlet?, outputPlace, entry, start, kept.here, kept.walk_eq, kept.node?_eq,
    kept.follow_eq]

/-- A text that is delivered later is delivered now, for nothing has happened in between. -/
theorem Kept.delivered {outlet : Outlet} (delivered : later.Delivered text last outlet) :
    w.Delivered text last outlet := by
  cases outlet with
  | printed =>
      obtain ⟨nodes, here, printed⟩ := delivered
      exact ⟨nodes.trans kept.nodes, here.trans kept.here, kept.printed ▸ printed⟩
  | file place =>
      obtain ⟨written, others, here, printed⟩ := delivered
      refine ⟨written, fun other apart => ?_, here.trans kept.here, printed.trans kept.printed⟩
      rw [others other apart, kept.node?_eq]
  | lost => exact kept.trans delivered

end Kept

variable {α β : Type} {source : Source}

/-- What an action of the command comes to, and the world behind it. -/
def perform (action : ExceptT Failure (StateM World) α) (w : World) : Except Failure α × World :=
  action.run w

theorem perform_pure (a : α) (w : World) :
    perform (pure a : ExceptT Failure (StateM World) α) w = (.ok a, w) := rfl

theorem perform_liftExcept (reading : Except Failure α) (w : World) :
    perform (liftExcept reading) w = (reading, w) := by
  cases reading <;> rfl

theorem perform_liftM (action : StateM World α) (w : World) :
    perform (liftM action) w = (.ok (action w).1, (action w).2) := rfl

/-- The first failure is the failure of the sequence. -/
theorem perform_bind (action : ExceptT Failure (StateM World) α)
    (next : α → ExceptT Failure (StateM World) β) (w : World) :
    perform (action >>= next) w =
      match perform action w with
      | (.ok a, later) => perform (next a) later
      | (.error failure, later) => (.error failure, later) := by
  simp only [perform, ExceptT.run, bind, ExceptT.bind, ExceptT.mk, StateT.bind]
  rcases action w with ⟨failure | a, later⟩ <;> rfl

/-- The world after a source was read to its end. -/
def afterRead (w : World) : Source → World
  | .input => w.drain.2
  | .stored _ => w

/-- A path with a source is loaded from it, and no other path is. -/
theorem load_eq (file : isInputStream path = false) :
    (∀ source, w.source? path = some source →
      w.load path = .ok (w.bytes source, w.afterRead source)) ∧
      (w.source? path = none → ∃ fault, w.load path = .error fault) := by
  simp only [source?, file, Bool.false_eq_true, ↓reduceIte, load]
  cases w.resolve path with
  | error cause => simp
  | ok place =>
      simp only
      rcases w.node? place with _ | node
      · simp
      · cases node <;> simp [Node.source?, bytes, afterRead, drain]

/-- A load that fails uses nothing up. -/
theorem perform_host_load (w : World) (path : String) :
    perform (liftM (host.load path)) w =
      match w.load path with
      | .ok (content, later) => (.ok (.ok content), later)
      | .error fault => (.ok (.error fault), w) := by
  simp only [perform_liftM, host]
  rcases w.load path with fault | ⟨content, later⟩ <;> rfl

/-- What has a source is read, and all else fails before anything is used up. -/
theorem perform_readBytes (w : World) (path : String) :
    (∀ source, w.source? path = some source →
      perform (readBytes host path) w = (.ok (w.bytes source), w.afterRead source)) ∧
      (w.source? path = none → ∃ failure, perform (readBytes host path) w = (.error failure, w)) := by
  unfold readBytes
  cases stream : isInputStream path with
  | true =>
      simp only [source?, stream, ↓reduceIte, Option.some.injEq, reduceCtorEq, false_implies,
        and_true]
      rintro source rfl
      rfl
  | false =>
      obtain ⟨found, absent⟩ := load_eq (w := w) stream
      simp only [Bool.false_eq_true, ↓reduceIte, perform_bind, perform_host_load]
      constructor
      · intro source here
        simp only [found source here]
        rfl
      · intro nowhere
        obtain ⟨fault, failed⟩ := absent nowhere
        simp only [failed]
        rcases fault with cause | cause <;> exact ⟨_, rfl⟩

theorem fromUTF8?_eq_some {bytes : ByteArray} :
    String.fromUTF8? bytes = some text ↔ bytes = text.toUTF8 := by
  unfold String.fromUTF8?
  split
  · next valid =>
    rw [Option.some.injEq, ← String.toByteArray_inj]
    rfl
  · next invalid =>
    constructor
    · rintro ⟨⟩
    · rintro rfl
      exact absurd text.isValidUTF8 invalid

/-- A sequence succeeds when each of its actions does. -/
theorem perform_bind_eq_ok {action : ExceptT Failure (StateM World) α}
    {next : α → ExceptT Failure (StateM World) β} {b : β} :
    perform (action >>= next) w = (.ok b, last) ↔
      ∃ a later, perform action w = (.ok a, later) ∧ perform (next a) later = (.ok b, last) := by
  rw [perform_bind]
  rcases perform action w with ⟨failure | a, later⟩
  · simp
  · constructor
    · intro ended
      exact ⟨a, later, rfl, ended⟩
    · rintro ⟨_, _, same, ended⟩
      cases same
      exact ended

theorem perform_liftExcept_eq_ok {reading : Except Failure α} {a : α} :
    perform (liftExcept reading) w = (.ok a, later) ↔ reading = .ok a ∧ later = w := by
  rw [perform_liftExcept, Prod.mk.injEq, eq_comm (a := w)]

/-- A text is read from a source that holds its encoding. -/
theorem perform_readText_eq_ok :
    perform (readText host path) w = (.ok text, later) ↔
      ∃ source, w.source? path = some source ∧ w.bytes source = text.toUTF8 ∧
        later = w.afterRead source := by
  obtain ⟨found, absent⟩ := perform_readBytes w path
  unfold readText
  rw [perform_bind]
  cases here : w.source? path with
  | none =>
      obtain ⟨failure, failed⟩ := absent here
      simp [failed]
  | some source =>
      simp only [found source here, Option.some.injEq, exists_eq_left', ← fromUTF8?_eq_some]
      rcases String.fromUTF8? (w.bytes source) with _ | read
      · show (Except.error (Failure.notText path), w.afterRead source) = _ ↔ _
        simp
      · show (Except.ok read, w.afterRead source) = _ ↔ _
        simp [eq_comm]

/-- Reading has no effect on files. -/
theorem kept_afterRead (w : World) (source : Source) : w.Kept (w.afterRead source) := by
  cases source with
  | input => exact kept_drain w
  | stored bytes => exact Kept.refl w

/-- The action leaves all files and prints alone, whether it succeeds or fails. -/
def Spares (action : ExceptT Failure (StateM World) α) : Prop :=
  ∀ w : World, w.Kept (perform action w).2

theorem spares_pure (a : α) : Spares (pure a : ExceptT Failure (StateM World) α) := Kept.refl

theorem spares_liftExcept (reading : Except Failure α) :
    Spares (liftExcept reading : ExceptT Failure (StateM World) α) := by
  intro w
  rw [perform_liftExcept]
  exact Kept.refl w

/-- A sequence of actions that spare the files spares them. -/
theorem spares_bind {action : ExceptT Failure (StateM World) α}
    {next : α → ExceptT Failure (StateM World) β} (first : Spares action)
    (second : ∀ a, Spares (next a)) : Spares (action >>= next) := by
  intro w
  have kept := first w
  rw [perform_bind]
  generalize perform action w = result at kept ⊢
  rcases result with ⟨failure | a, later⟩
  · exact kept
  · exact kept.trans (second a later)

/-- Whether it succeeds or fails, a reader writes nothing. -/
theorem spares_readBytes (path : String) : Spares (readBytes host path) := by
  intro w
  obtain ⟨found, absent⟩ := perform_readBytes w path
  cases here : w.source? path with
  | none =>
      obtain ⟨failure, failed⟩ := absent here
      rw [failed]
      exact Kept.refl w
  | some source =>
      rw [found source here]
      exact kept_afterRead w source

theorem spares_readText (path : String) : Spares (readText host path) := by
  refine spares_bind (spares_readBytes path) fun bytes => ?_
  rcases String.fromUTF8? bytes with _ | text
  · exact spares_liftExcept (.error (.notText path))
  · exact spares_pure text

/-- What is put somewhere is found there. -/
theorem node?_put_self (inside : place ≠ []) (node : Node) :
    (w.put place node).node? place = some node := by
  simp [node?, put, inside]

theorem node?_put_ne {other : Place} (apart : other ≠ place) (node : Node) :
    (w.put place node).node? other = w.node? other := by
  have skipped (nodes : List (Place × Node)) :
      (nodes.filter (·.1 ≠ place)).lookup other = nodes.lookup other := by
    induction nodes with
    | nil => rfl
    | cons entry rest ih =>
        by_cases same : entry.1 = place
        · have passed : (other == entry.1) = false := beq_false_of_ne (same ▸ apart)
          rw [List.filter_cons_of_neg (by simp [same]), ih, List.lookup_cons, passed]
        · rw [List.filter_cons_of_pos (by simp [same]), List.lookup_cons, List.lookup_cons, ih]
  simp only [node?, put, List.lookup_cons, beq_false_of_ne apart, skipped]

/-- What has an outlet takes the text, and all else fails before anything is written. -/
theorem save_eq (file : isOutputStream path = false) (text : String) :
    (∀ outlet, w.outlet? path = some outlet →
      ∃ later, w.save path text = .ok later ∧ w.Delivered text later outlet) ∧
      (w.outlet? path = none → ∃ fault, w.save path text = .error fault) := by
  simp only [outlet?, file, Bool.false_eq_true, ↓reduceIte, save]
  cases w.outputPlace path with
  | error cause => simp
  | ok place =>
      have stored (inhabited : w.node? place ≠ some (.directory none)) :
          w.Delivered text (w.put place (.file text.toUTF8)) (.file place) := by
        have inside : place ≠ [] := by
          rintro rfl
          exact inhabited rfl
        exact ⟨node?_put_self inside _, fun other apart => node?_put_ne apart _, rfl, rfl⟩
      simp only
      rcases here : w.node? place with _ | node
      · simp only [Option.some.injEq, forall_eq', Except.ok.injEq, exists_eq_left', reduceCtorEq,
          false_implies, and_true]
        exact stored (by simp [here])
      · cases node <;>
          simp only [Node.outlet?, Option.some.injEq, forall_eq', Except.ok.injEq,
            exists_eq_left', reduceCtorEq, false_implies, and_true, implies_true,
            Except.error.injEq, exists_eq']
        case output => exact ⟨rfl, rfl, rfl⟩
        case input | sink => exact Kept.refl w
        case file | link => exact stored (by simp [here])

/-- A save that fails changes nothing. -/
theorem perform_host_save (w : World) (path text : String) :
    perform (liftM (host.save path text)) w =
      match w.save path text with
      | .ok later => (.ok (.ok ()), later)
      | .error fault => (.ok (.error fault), w) := by
  simp only [perform_liftM, host]
  rcases w.save path text with fault | later <;> rfl

/-- A text goes to the outlet of its path, and without an outlet it is not written at all. -/
theorem perform_writeText (w : World) (path text : String) :
    (∀ outlet, w.outlet? path = some outlet →
      ∃ later, perform (writeText host path text) w = (.ok (), later) ∧
        w.Delivered text later outlet) ∧
      (w.outlet? path = none →
        ∃ failure, perform (writeText host path text) w = (.error failure, w)) := by
  unfold writeText
  cases stream : isOutputStream path with
  | true =>
      simp only [outlet?, stream, ↓reduceIte, Option.some.injEq, reduceCtorEq, false_implies,
        and_true]
      rintro outlet rfl
      exact ⟨_, rfl, rfl, rfl, rfl⟩
  | false =>
      obtain ⟨found, absent⟩ := save_eq (w := w) stream text
      simp only [Bool.false_eq_true, ↓reduceIte, perform_bind, perform_host_save]
      constructor
      · intro outlet here
        obtain ⟨later, saved, delivered⟩ := found outlet here
        simp only [saved]
        exact ⟨later, rfl, delivered⟩
      · intro nowhere
        obtain ⟨fault, failed⟩ := absent nowhere
        simp only [failed]
        rcases fault with cause | cause <;> exact ⟨_, rfl⟩

end World

end Switchyard.Command
