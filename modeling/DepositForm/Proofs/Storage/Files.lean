import DepositForm.Storage.Disk

/-! # Files that a state holds

What is proved of the program should hold for any files it may find: for a disk, for files that may
not be read, for a single file that stands alone. `Files` says what all of these have in common. A
state tells what is at a path and what a file says, looking leaves the state as it is, and only
making and writing give another one. Nothing is asked of what they answer.

Work that only looks then has a value of its own (`Finds`), which is put together from the values of
its parts.
-/
namespace DepositForm

variable {σ ε ε' α β : Type}

/-- Files that a state holds. -/
structure Files (σ : Type) where
  /-- Whether there is anything at a path. -/
  isThere : σ → Path → Bool
  /-- The text of a file. -/
  read : σ → Path → Except StorageError String
  /-- Makes a file hold a text. -/
  write : σ → Path → String → Except StorageError Unit × σ
  /-- Makes the directories that a path leads through. -/
  ensureParent : σ → Path → Except StorageError Unit × σ
  /-- The directory that paths start from. -/
  workplace : σ → Except StorageError Path

/-- The files of a state as storage. -/
def Files.storage (files : Files σ) : Storage (StateM σ) where
  isThere path := return files.isThere (← get) path
  read path := return files.read (← get) path
  write path text st := files.write st path text
  ensureParent path st := files.ensureParent st path
  workplace := return files.workplace (← get)

/-- The files of a disk. -/
def Disk.files : Files Disk where
  isThere := Disk.isThere
  read := Disk.read
  write d path text :=
    match d.write path text with
    | .ok d' => (.ok (), d')
    | .error e => (.error e, d)
  ensureParent := Disk.ensureParent
  workplace := Disk.workplace

theorem Disk.storage_eq : Disk.storage = Disk.files.storage := rfl

/-- A file that holds the bytes of a text is read as this text. -/
theorem Disk.read_of_text {d : Disk} {path : Path} {place : Place} {text : String}
    (hwalk : d.walk .look path = .ok (.file place))
    (hcontent : d.content? place = some (.file text.toUTF8)) : d.read path = .ok text := by
  have htext : String.fromUTF8? text.toUTF8 = some text := by
    simp only [String.fromUTF8?, String.fromUTF8]
    exact dif_pos text.isValidUTF8
  rw [read, hwalk]
  dsimp only
  rw [hcontent]
  dsimp only
  rw [htext]

/-! ## Work that only looks -/

/-- Work that finds `r` in a state, which stays as it is. -/
def Finds (st : σ) (x : ExceptT ε (StateM σ) α) (r : Except ε α) : Prop :=
  x.run.run st = (r, st)

section Finds
variable {st : σ}

theorem Finds.pure (a : α) : Finds st (Pure.pure a : ExceptT ε (StateM σ) α) (.ok a) := rfl

theorem Finds.ofExcept (r : Except ε α) : Finds st (liftM r : ExceptT ε (StateM σ) α) r := rfl

theorem Finds.adapt {x : ExceptT ε (StateM σ) α} {r : Except ε α} (h : Finds st x r) (f : ε → ε') :
    Finds st (x.adapt f) (r.mapError f) := by
  have hrun : (x.adapt f).run.run st = ((x.run.run st).1.mapError f, (x.run.run st).2) := rfl
  unfold Finds at h ⊢
  rw [hrun, h]

theorem Finds.unique {x : ExceptT ε (StateM σ) α} {r r' : Except ε α} (h : Finds st x r)
    (h' : Finds st x r') : r = r' :=
  congrArg Prod.fst (Eq.trans (Eq.symm h) h')

/-- After work that only looks, the next work starts on the same state. -/
theorem Finds.run_bind {x : ExceptT ε (StateM σ) α} {a : α} (h : Finds st x (.ok a))
    (f : α → ExceptT ε (StateM σ) β) : (x >>= f).run.run st = (f a).run.run st := by
  unfold Finds at h
  rw [ExceptT.run_bind, StateT.run_bind, h]
  rfl

/-- Work that begins with a look that succeeds. -/
theorem Finds.look {x : ExceptT ε (StateM σ) α} {a : α} {f : α → ExceptT ε (StateM σ) β}
    {r : Except ε β} (hx : Finds st x (.ok a)) (hf : Finds st (f a) r) : Finds st (x >>= f) r :=
  (hx.run_bind f).trans hf

theorem Finds.bind {x : ExceptT ε (StateM σ) α} {r : Except ε α}
    {f : α → ExceptT ε (StateM σ) β} {g : α → Except ε β} (hx : Finds st x r)
    (hf : ∀ a, Finds st (f a) (g a)) : Finds st (x >>= f) (r >>= g) := by
  cases r with
  | ok a => exact hx.look (hf a)
  | error e =>
    unfold Finds at hx ⊢
    rw [ExceptT.run_bind, StateT.run_bind, hx]
    rfl

variable (files : Files σ)

theorem Files.finds_isThere (path : Path) :
    Finds st (liftM (files.storage.isThere path) : ExceptT ε (StateM σ) Bool)
      (.ok (files.isThere st path)) := rfl

theorem Files.finds_read (path : Path) :
    Finds st (liftM (files.storage.read path) : ExceptT ε (StateM σ) (Except StorageError String))
      (.ok (files.read st path)) := rfl

theorem Files.finds_workplace :
    Finds st (liftM files.storage.workplace : ExceptT ε (StateM σ) (Except StorageError Path))
      (.ok (files.workplace st)) := rfl

end Finds
end DepositForm
