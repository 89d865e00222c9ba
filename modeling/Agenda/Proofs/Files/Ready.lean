import Agenda.Proofs.Files.Stores
import Mathlib.Logic.Basic

/-! Opening, changing and closing a store touches its file and those beside it, and leaves nothing that
stands in the way of opening it again. -/

namespace Agenda

theorem Location.beside_inj {location : Location} {ending other : String} :
    location.beside ending = location.beside other ↔ ending = other := by
  refine ⟨fun same => ?_, fun same => same ▸ rfl⟩
  have names := congrArg Location.name same
  rw [Location.name_beside, Location.name_beside] at names
  exact (String.append_right_inj _).mp names

namespace Files

variable {files before next after : Files} {location other : Location} {node : Node} {store : Store}

theorem isDirectory_iff : files.IsDirectory location ↔ files.node? location = some .directory := by
  unfold IsDirectory
  split <;> simp_all

/-- Nothing has changed but the file at the location and the files beside it, and what is a directory is as
before. -/
structure ChangesAround (location : Location) (before after : Files) : Prop where
  directories : ∀ other, after.IsDirectory other ↔ before.IsDirectory other
  elsewhere : ∀ other, other ≠ location → other ∉ location.companions →
    after.node? other = before.node? other

theorem ChangesAround.refl (location : Location) (files : Files) :
    ChangesAround location files files where
  directories _ := Iff.rfl
  elsewhere _ _ _ := rfl

theorem ChangesAround.trans (first : ChangesAround location before next)
    (second : ChangesAround location next after) : ChangesAround location before after where
  directories other := (second.directories other).trans (first.directories other)
  elsewhere other apart notBeside :=
    (second.elsewhere other apart notBeside).trans (first.elsewhere other apart notBeside)

theorem isDirectory_nil (files : Files) : files.IsDirectory [] := isDirectory_iff.mpr rfl

theorem isDirectory_put_iff (plain : node ≠ .directory) (free : ¬ files.IsDirectory location) :
    (files.put location node).IsDirectory other ↔ files.IsDirectory other := by
  by_cases same : other = location
  · subst same
    have inner : other ≠ [] := fun outermost => free (outermost ▸ files.isDirectory_nil)
    refine iff_of_false (fun directory => ?_) free
    rw [isDirectory_iff, node?_put files node inner] at directory
    exact plain (Option.some.inj directory)
  · rw [isDirectory_iff, isDirectory_iff, node?_put_of_ne files node same]

theorem isDirectory_erase_iff : (files.erase location).IsDirectory other ↔ files.IsDirectory other := by
  by_cases same : other = location
  · subst same
    by_cases directory : files.IsDirectory other
    · rw [erase, if_pos directory]
    · refine iff_of_false (fun erased => ?_) directory
      rw [isDirectory_iff, node?_erase directory] at erased
      cases erased
  · rw [isDirectory_iff, isDirectory_iff, node?_erase_of_ne files same]

theorem changesAround_put (plain : node ≠ .directory) (free : ¬ files.IsDirectory location) :
    ChangesAround location files (files.put location node) where
  directories _ := isDirectory_put_iff plain free
  elsewhere _ apart _ := node?_put_of_ne files node apart

theorem Tidies.changesAround (tidies : Tidies location before after) :
    ChangesAround location before after where
  directories other := by
    induction tidies with
    | refl => rfl
    | erase _ _ ih => rw [isDirectory_erase_iff, ih]
    | index _ free ih => rw [isDirectory_put_iff Node.noConfusion free, ih]
  elsewhere _ _ notBeside := tidies.node?_eq notBeside

theorem changesAround_touch (files : Files) (location : Location) :
    ChangesAround location files (files.touch location) := by
  unfold touch
  split
  · rename_i free
    apply changesAround_put Node.noConfusion
    rw [isDirectory_iff, free]
    simp
  · exact .refl location files

theorem changesAround_write (free : ¬ files.IsDirectory location) (store : Store) :
    ChangesAround location files (files.write location store) := by
  obtain ⟨next, tidies, written⟩ := files.exists_write_eq_put location store
  have changes := tidies.changesAround
  rw [← changes.directories] at free
  rw [written]
  exact changes.trans (changesAround_put Node.noConfusion free)

theorem not_isDirectory_of_vacant (vacant : Vacant (files.node? location)) :
    ¬ files.IsDirectory location := by
  intro directory
  rw [isDirectory_iff.mp directory] at vacant
  exact vacant

theorem changesAround_takeStore (files : Files) (location : Location) :
    ChangesAround location files (files.takeStore location).1 := by
  unfold takeStore
  split
  · exact .refl location files
  · split
    · rename_i vacant
      unfold start
      split
      · exact .refl location files
      · exact changesAround_write (not_isDirectory_of_vacant vacant) .empty
    · exact (files.tidies_closeLog location).changesAround

theorem openFile_eq_takeStore (journal : (files.clearJournal location).2 = .ok ())
    (log : ((files.clearJournal location).1.openLog location).2 = .ok ()) :
    files.openFile location =
      ((files.clearJournal location).1.openLog location).1.takeStore location := by
  unfold openFile
  split
  · rename_i failed
    rw [failed] at journal
    cases journal
  · rename_i next cleared
    rw [cleared] at log ⊢
    split
    · rename_i failed
      rw [failed] at log
      cases log
    · rename_i last logged
      rw [logged]

theorem cleared_of_openFile (opened : (files.openFile location).2 = .ok store) :
    (files.clearJournal location).2 = .ok () ∧
      ((files.clearJournal location).1.openLog location).2 = .ok () := by
  unfold openFile at opened
  split at opened
  · cases opened
  · rename_i next cleared
    rw [cleared]
    split at opened
    · cases opened
    · rename_i last logged
      rw [logged]
      exact ⟨rfl, rfl⟩

/-- Nothing beside the location stands in the way of writing a store there and opening it. -/
structure IsClear (files : Files) (location : Location) : Prop where
  journal : ¬ files.IsDirectory location.journal
  log : ¬ files.IsDirectory location.log
  index : Filled (files.node? location.log) → ¬ files.IsDirectory location.index

/-- A store lies at the location, and nothing beside it stands in the way. -/
structure IsReady (files : Files) (location : Location) : Prop extends files.IsClear location where
  stored : ∃ store text, files.node? location = some (.store store text)

theorem IsReady.not_vacant (ready : files.IsReady location) : ¬ Vacant (files.node? location) := by
  obtain ⟨store, text, lies⟩ := ready.stored
  rw [lies]
  exact id

theorem IsReady.not_isDirectory (ready : files.IsReady location) : ¬ files.IsDirectory location := by
  obtain ⟨store, text, lies⟩ := ready.stored
  rw [isDirectory_iff, lies]
  simp

theorem IsClear.of_changesAround (clear : files.IsClear location)
    (changes : ChangesAround location files after)
    (log : Filled (after.node? location.log) → Filled (files.node? location.log)) :
    after.IsClear location where
  journal := (changes.directories _).not.mpr clear.journal
  log := (changes.directories _).not.mpr clear.log
  index filled := (changes.directories _).not.mpr (clear.index (log filled))

theorem index_ne_log (location : Location) : location.index ≠ location.log :=
  Location.beside_inj.not.mpr (by decide)

theorem Tidies.filled_log (tidies : Tidies location before after)
    (filled : Filled (after.node? location.log)) : Filled (before.node? location.log) := by
  induction tidies with
  | refl => exact filled
  | @erase files other _ _ ih =>
      apply ih
      by_cases same : location.log = other
      · subst same
        by_cases directory : files.IsDirectory location.log
        · rwa [Files.erase, if_pos directory] at filled
        · rw [node?_erase directory] at filled
          exact filled.elim
      · rwa [node?_erase_of_ne files same] at filled
  | @index files _ _ ih =>
      apply ih
      rwa [node?_put_of_ne files _ (index_ne_log location).symm] at filled

theorem IsReady.of_tidies (ready : files.IsReady location) (tidies : Tidies location files after) :
    after.IsReady location where
  toIsClear := ready.toIsClear.of_changesAround tidies.changesAround tidies.filled_log
  stored := by
    rw [tidies.node?_eq location.notMem_companions]
    exact ready.stored

theorem IsReady.exists_openFile (ready : files.IsReady location) :
    ∃ store, (files.openFile location).2 = .ok store := by
  have journal : (files.clearJournal location).2 = .ok () := by
    unfold clearJournal
    rw [if_neg fun blocked => ready.journal blocked.1]
    split
    · rfl
    · rfl
  have cleared := ready.of_tidies (files.tidies_clearJournal location)
  have log : ((files.clearJournal location).1.openLog location).2 = .ok () := by
    unfold openLog
    rw [if_neg cleared.log]
    split
    · rfl
    · rename_i filled
      rw [if_neg cleared.not_vacant, if_neg (cleared.index (not_not.mp filled))]
  have tidied := cleared.of_tidies (tidies_openLog _ location)
  obtain ⟨store, text, lies⟩ := tidied.stored
  refine ⟨store, ?_⟩
  rw [openFile_eq_takeStore journal log, takeStore, lies]

theorem IsClear.write (clear : files.IsClear location) (free : ¬ files.IsDirectory location)
    (store : Store) : (files.write location store).IsReady location := by
  have changes := changesAround_write free store
  obtain ⟨next, tidies, written⟩ := files.exists_write_eq_put location store
  rw [written] at changes ⊢
  have inner : location ≠ [] := fun outermost => free (outermost ▸ files.isDirectory_nil)
  have apart : location.log ≠ location := location.beside_ne (by decide)
  refine ⟨clear.of_changesAround changes fun filled => ?_, store, none, node?_put next _ inner⟩
  rw [node?_put_of_ne next _ apart] at filled
  exact tidies.filled_log filled

theorem IsReady.closeLog (ready : files.IsReady location) : (files.closeLog location).IsReady location :=
  ready.of_tidies (files.tidies_closeLog location)

theorem index_of_openLog (opened : (files.openLog location).2 = .ok ()) :
    ¬ (files.openLog location).1.IsDirectory location.log ∧
      (Filled ((files.openLog location).1.node? location.log) →
        ¬ (files.openLog location).1.IsDirectory location.index) := by
  have changes := (files.tidies_openLog location).changesAround
  rw [changes.directories, changes.directories]
  unfold openLog at opened ⊢
  split at opened
  · cases opened
  · rename_i noDirectory
    refine ⟨noDirectory, ?_⟩
    rw [if_neg noDirectory]
    split at opened
    · rename_i noLog
      rw [if_pos noLog]
      exact fun filled => absurd filled noLog
    · rename_i logged
      rw [if_neg logged]
      split at opened
      · rename_i vacant
        rw [if_pos vacant, node?_erase noDirectory]
        exact False.elim
      · split at opened
        · cases opened
        · rename_i free
          exact fun _ => free

theorem journal_of_clearJournal (cleared : (files.clearJournal location).2 = .ok ()) :
    ¬ (files.IsDirectory location.journal ∧ ¬ Vacant (files.node? location)) := by
  unfold clearJournal at cleared
  split at cleared
  · cases cleared
  · assumption

theorem isReady_of_takeStore
    (journal : ¬ (files.IsDirectory location.journal ∧ ¬ Vacant (files.node? location)))
    (log : ¬ files.IsDirectory location.log)
    (index : Filled (files.node? location.log) → ¬ files.IsDirectory location.index)
    (taken : (files.takeStore location).2 = .ok store) : (files.takeStore location).1.IsReady location := by
  unfold takeStore at *
  split at taken
  · rename_i held text lies
    refine ⟨⟨fun directory => journal ⟨directory, ?_⟩, log, index⟩, held, text, lies⟩
    rw [lies]
    exact id
  · split at taken
    · rename_i vacant
      rw [if_pos vacant]
      unfold start at *
      split at taken
      · cases taken
      · rename_i writable
        rw [if_neg writable]
        have clear : files.IsClear location := ⟨fun directory => writable (.inl directory), log, index⟩
        exact clear.write (not_isDirectory_of_vacant vacant) .empty
    · cases taken

theorem isReady_of_openFile (opened : (files.openFile location).2 = .ok store) :
    (files.openFile location).1.IsReady location ∧
      ChangesAround location files (files.openFile location).1 := by
  obtain ⟨journal, log⟩ := cleared_of_openFile opened
  have cleared := files.tidies_clearJournal location
  have tidied := (files.clearJournal location).1.tidies_openLog location
  rw [openFile_eq_takeStore journal log] at opened ⊢
  have readable := journal_of_clearJournal journal
  rw [← cleared.changesAround.directories, ← tidied.changesAround.directories,
    ← cleared.node?_eq location.notMem_companions, ← tidied.node?_eq location.notMem_companions] at readable
  obtain ⟨noDirectory, index⟩ := index_of_openLog log
  exact ⟨isReady_of_takeStore readable noDirectory index opened,
    (cleared.changesAround.trans tidied.changesAround).trans (changesAround_takeStore _ location)⟩

end Files

end Agenda
