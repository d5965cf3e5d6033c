import DepositForm.Command.Run

/-! # What is printed before a failure

A command prints on its way, so a failure could come after some of its lines. It does not: every
command first does all that can fail and prints afterwards. `EndsAs` says so of printing work and
the silent work it begins with, and the statements below give the silent work of each command. Where
a command fails, and what it does to storage, is then asked of the silent work alone.
-/
namespace DepositForm.Command

variable {σ α β : Type}

/-- How printing work ends that finds some output printed and storage in some state. -/
def ending (x : Printing (StateM σ) α) (o : Output) (st : σ) : (Except Failure α × Output) × σ :=
  (x.run.run o).run st

theorem ending_silently (x : ExceptT Failure (StateM σ) α) (o : Output) (st : σ) :
    ending (silently x) o st = (((x.run.run st).1, o), (x.run.run st).2) := rfl

theorem ending_bind (x : Printing (StateM σ) α) (f : α → Printing (StateM σ) β) (o : Output)
    (st : σ) :
    ending (x >>= f) o st =
      match ending x o st with
      | ((.ok a, o'), st') => ending (f a) o' st'
      | ((.error e, o'), st') => ((.error e, o'), st') := by
  unfold ending
  rw [ExceptT.run_bind, StateT.run_bind, StateT.run_bind]
  rcases (x.run.run o).run st with ⟨⟨_ | _, o'⟩, st'⟩ <;> rfl

theorem ending_silently_bind (x : ExceptT Failure (StateM σ) α) (f : α → Printing (StateM σ) β)
    (o : Output) (st : σ) :
    ending (silently x >>= f) o st =
      match x.run.run st with
      | (.ok a, st') => ending (f a) o st'
      | (.error e, st') => ((.error e, o), st') := by
  rw [ending_bind, ending_silently]
  rcases x.run.run st with ⟨_ | _, st'⟩ <;> rfl

/-- A run starts with nothing printed, and tells what has been printed in the end. -/
theorem run_run (borrowed : Borrowed) (s : Storage (StateM σ)) (e : Environment)
    (coloured : Coloured) (i : Invocation) (st : σ) :
    (run borrowed s e coloured i).run.run st =
      match ending (work borrowed s e coloured i) {} st with
      | ((.ok (), printed), st') => (.ok printed, st')
      | ((.error failure, printed), st') => (.error ⟨failure, printed⟩, st') := by
  have hlift : (liftM ((work borrowed s e coloured i).run.run {}) :
      ExceptT Stopped (StateM σ) _).run.run st =
        (.ok (ending (work borrowed s e coloured i) {} st).1,
          (ending (work borrowed s e coloured i) {} st).2) := rfl
  unfold run
  rw [ExceptT.run_bind, StateT.run_bind, hlift]
  rcases ending (work borrowed s e coloured i) {} st with ⟨⟨_ | _, printed⟩, st'⟩ <;> rfl

theorem state_run (borrowed : Borrowed) (s : Storage (StateM σ)) (e : Environment)
    (coloured : Coloured) (i : Invocation) (st : σ) :
    ((run borrowed s e coloured i).run.run st).2 =
      (ending (work borrowed s e coloured i) {} st).2 := by
  rw [run_run]
  rcases ending (work borrowed s e coloured i) {} st with ⟨⟨_ | _, _⟩, _⟩ <;> rfl

/-! ## Work that only prints -/

/-- Work that prints and does nothing else. -/
def Prints (x : Printing (StateM σ) Unit) : Prop :=
  ∀ o st, ∃ o', ending x o st = ((.ok (), o'), st)

theorem prints_say (line : String) : Prints (say line : Printing (StateM σ) Unit) :=
  fun _ _ => ⟨_, rfl⟩

theorem prints_warn (line : String) : Prints (warn line : Printing (StateM σ) Unit) :=
  fun _ _ => ⟨_, rfl⟩

theorem prints_pure : Prints (pure () : Printing (StateM σ) Unit) := fun _ _ => ⟨_, rfl⟩

theorem Prints.bind {x : Printing (StateM σ) Unit} {f : Unit → Printing (StateM σ) Unit}
    (hx : Prints x) (hf : Prints (f ())) : Prints (x >>= f) := by
  intro o st
  obtain ⟨o₁, hx⟩ := hx o st
  obtain ⟨o₂, hf⟩ := hf o₁ st
  refine ⟨o₂, ?_⟩
  rw [ending_bind, hx]
  exact hf

theorem prints_forM {items : List α} {f : α → Printing (StateM σ) Unit}
    (h : ∀ a, Prints (f a)) : Prints (items.forM f) := by
  induction items with
  | nil => exact prints_pure
  | cons a rest ih => exact (h a).bind ih

/-! ## Work that prints at its end -/

/-- Printing work ends as silent work does: it fails where that fails, with nothing printed, and
leaves storage as that leaves it. -/
def EndsAs (x : Printing (StateM σ) Unit) (y : ExceptT Failure (StateM σ) α) : Prop :=
  ∀ o st, ∃ o', ending x o st =
    match y.run.run st with
    | (.ok _, st') => ((.ok (), o'), st')
    | (.error f, st') => ((.error f, o), st')

theorem Prints.endsAs {x : Printing (StateM σ) Unit} (h : Prints x) :
    EndsAs x (pure () : ExceptT Failure (StateM σ) Unit) := h

theorem endsAs_silently_bind {y : ExceptT Failure (StateM σ) α}
    {f : α → Printing (StateM σ) Unit} (hf : ∀ a, Prints (f a)) : EndsAs (silently y >>= f) y := by
  intro o st
  rw [ending_silently_bind]
  rcases y.run.run st with ⟨_ | a, st'⟩
  · exact ⟨o, rfl⟩
  · exact hf a o st'

theorem EndsAs.state {x : Printing (StateM σ) Unit} {y : ExceptT Failure (StateM σ) α}
    (h : EndsAs x y) (o : Output) (st : σ) : (ending x o st).2 = (y.run.run st).2 := by
  obtain ⟨o', h⟩ := h o st
  rw [h]
  rcases y.run.run st with ⟨_ | _, st'⟩ <;> rfl

variable (borrowed : Borrowed) (s : Storage (StateM σ)) (e : Environment) (coloured : Coloured)
  (settings : Settings) (directory : Path)

theorem endsAs_runLeaves (file : Path) (paths : Bool) :
    EndsAs (runLeaves borrowed s settings file paths)
      ((s.loadLeaves borrowed.toml file settings.pathSeparator).adapt Failure.data) :=
  endsAs_silently_bind fun _ => prints_forM prints_say

theorem endsAs_runCount (file : Path) :
    EndsAs (runCount borrowed s coloured file)
      ((s.summarize borrowed.toml file).adapt Failure.data) :=
  endsAs_silently_bind fun _ => (prints_say _).bind ((prints_say _).bind (prints_say _))

theorem endsAs_runTree (file : Path) :
    EndsAs (runTree borrowed s file) ((s.loadDocument borrowed.toml file).adapt Failure.data) :=
  endsAs_silently_bind fun _ => prints_say _

theorem endsAs_runSortOptions (file : Path) :
    EndsAs (runSortOptions borrowed s file)
      ((s.loadChoices borrowed.toml file).adapt Failure.data) :=
  endsAs_silently_bind fun _ => prints_forM fun _ => prints_say _

theorem endsAs_runInit (file : Path) : EndsAs (runInit s coloured file) (makeSettings s file) :=
  endsAs_silently_bind fun _ => prints_say _

theorem prints_runLabel (key : Option String) (plural capitalized : Bool) :
    Prints (runLabel coloured settings key plural capitalized : Printing (StateM σ) Unit) := by
  unfold runLabel
  dsimp only
  split
  · exact (prints_warn _).bind (prints_say _)
  · exact prints_say _

theorem prints_runConfigPath :
    Prints (runConfigPath coloured e directory : Printing (StateM σ) Unit) :=
  (prints_say _).bind (prints_say _)

theorem prints_runFields {kind : String} {k : EntryKind} (h : EntryKind.ofName kind = .ok k)
    (base : String) (index : Nat) :
    Prints (runFields coloured kind base index : Printing (StateM σ) Unit) := by
  unfold runFields
  rw [h]
  exact (prints_say _).bind (prints_forM fun _ => prints_say _)

end DepositForm.Command
