import DepositForm.Document.Load
import DepositForm.Proofs.Storage.Files
import DepositForm.Settings

/-! # What loading finds

Loading a document looks at the extension of the path, at the file and at its text, in this order,
and stops at the first that is wrong. All that is told of a document comes from one and the same
reading of it (`Files.document`), which leaves the files as they are.

For settings a file that is not there is a layer that gives nothing, so settings are the defaults
under three layers. They are looked for in their order, and the first that cannot be had decides.
-/
namespace DepositForm.Files

variable {σ α : Type} (files : Files σ) (wording : Toml.Wording) (st : σ)

/-! ## Documents -/

/-- The format of the document at a path, and what `reader` reads in it. -/
def document (reader : Reader α) (path : Path) : Except DataError (Format × α) := do
  let format ← Format.ofPath path
  let text ← (files.read st path).mapError (.unreadable "read document" path)
  let value ← (format.read wording reader text).mapError (.unparsable path)
  return (format, value)

theorem document_of_read {reader : Reader α} {path : Path} {format : Format} {text : String}
    (hformat : Format.ofPath path = .ok format) (hread : files.read st path = .ok text) :
    files.document wording st reader path = (do
      let value ← (format.read wording reader text).mapError (.unparsable path)
      return (format, value)) := by
  rw [document, hformat, hread]
  rfl

theorem finds_readDocument (reader : Reader α) (path : Path) :
    Finds st (files.storage.readDocument wording reader path)
      (files.document wording st reader path) := by
  refine Finds.bind (.ofExcept _) fun format => Finds.look (files.finds_read path) ?_
  cases files.read st path with
  | error cause => rfl
  | ok text =>
    change Finds st _ (do
      return (format, ← (format.read wording reader text).mapError (DataError.unparsable path)))
    refine Finds.look (.pure text) ?_
    dsimp only
    cases format.read wording reader text <;> rfl

theorem finds_loadDocument (path : Path) :
    Finds st (files.storage.loadDocument wording path)
      (do return (← files.document wording st Announced.toNode path).2) :=
  Finds.bind (files.finds_readDocument wording st _ path) fun _ => .pure _

theorem finds_loadLeaves (path : Path) (separator : String) :
    Finds st (files.storage.loadLeaves wording path separator)
      (do return (← files.document wording st Announced.toNode path).2.leafPaths separator) := by
  have h := Finds.bind (files.finds_loadDocument wording st path) fun node =>
    Finds.pure (node.leafPaths separator)
  rwa [bind_assoc] at h

theorem finds_summarize (path : Path) :
    Finds st (files.storage.summarize wording path) (do
      let (format, node) ← files.document wording st Announced.toNode path
      return { path, format, leaves := node.leafCount, depth := node.depth }) :=
  Finds.bind (files.finds_readDocument wording st _ path) fun _ => .pure _

theorem finds_loadChoices (path : Path) :
    Finds st (files.storage.loadChoices wording path)
      (do return Choice.sort (← files.document wording st Choice.readAll path).2) :=
  Finds.bind (files.finds_readDocument wording st _ path) fun _ => .pure _

/-! ## Settings -/

/-- The layer in the file at a path; one that is not there gives nothing. -/
def layer (path : Path) : Except DataError Layer :=
  if files.isThere st path then do
    let text ← (files.read st path).mapError fun cause =>
      .settings ("read " ++ path.text ++ ": " ++ cause.message)
    (Format.readToml wording Layer.read text).mapError fun message =>
      .settings ("parse " ++ path.text ++ ": " ++ message)
  else .ok {}

/-- The layer in a file that may not be known. -/
def layer? : Option Path → Except DataError Layer
  | some path => files.layer wording st path
  | none => .ok {}

/-- The settings that hold in a directory, or everywhere if none is given. -/
def settings (e : Environment) (directory : Option Path) : Except DataError Settings := do
  let everywhere ← files.layer? wording st e.globalFile?
  let here ← files.layer? wording st (directory.map localFile)
  return ((({} : Settings).under everywhere).under here).under e.layer

variable {st}

theorem layer_of_not_there {path : Path} (h : files.isThere st path = false) :
    files.layer wording st path = .ok {} := by
  rw [layer, h]
  rfl

theorem finds_readLayer {path : Path} (h : files.isThere st path = true) :
    Finds st (files.storage.readLayer wording path) (files.layer wording st path) := by
  refine Finds.look (files.finds_read path) ?_
  rw [layer, if_pos h]
  cases files.read st path with
  | error cause => rfl
  | ok text =>
    change Finds st _ ((Format.readToml wording Layer.read text).mapError _)
    dsimp only
    cases Format.readToml wording Layer.read text <;> rfl

variable (st)

theorem finds_mergeFile (s : Settings) (path : Path) :
    Finds st (files.storage.mergeFile wording s path)
      (do return s.under (← files.layer wording st path)) := by
  refine Finds.look (files.finds_isThere path) ?_
  cases hthere : files.isThere st path with
  | false =>
    rw [files.layer_of_not_there wording hthere]
    exact .pure s
  | true => exact Finds.bind (files.finds_readLayer wording hthere) fun _ => .pure _

theorem finds_mergeFile? (s : Settings) (path : Option Path) :
    Finds st (files.storage.mergeFile? wording s path)
      (do return s.under (← files.layer? wording st path)) := by
  cases path with
  | none => exact .pure s
  | some path => exact files.finds_mergeFile wording st s path

theorem finds_loadSettings (e : Environment) (directory : Option Path) :
    Finds st (files.storage.loadSettings wording e directory)
      (files.settings wording st e directory) := by
  have h := Finds.bind (files.finds_mergeFile? wording st {} e.globalFile?) fun s =>
    Finds.bind (files.finds_mergeFile? wording st s (directory.map localFile)) fun s =>
      Finds.pure (s.under e.layer)
  simp only [bind_assoc, pure_bind] at h
  exact h

end DepositForm.Files
