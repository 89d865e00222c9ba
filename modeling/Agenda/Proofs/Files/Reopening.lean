import Agenda.Proofs.Files.Path
import Agenda.Proofs.Files.Ready

namespace Agenda.Files

variable {files before after : Files} {here other location : Location} {names : List String}
  {path parent : String} {store : Store} {made : Bool}

/-- The names lead from directory to directory. -/
def IsWay (files : Files) (here : Location) : List String → Prop
  | [] => True
  | name :: rest =>
      if name = Path.upward then files.IsWay here.dropLast rest
      else name.utf8ByteSize ≤ Path.longestName ∧ files.IsDirectory (here ++ [name]) ∧
        files.IsWay (here ++ [name]) rest

theorem IsWay.mono (way : before.IsWay here names)
    (directories : ∀ other, before.IsDirectory other → after.IsDirectory other) :
    after.IsWay here names := by
  induction names generalizing here with
  | nil => trivial
  | cons name rest ih =>
      unfold IsWay at way ⊢
      split at way
      · rename_i up
        rw [if_pos up]
        exact ih way
      · rename_i inward
        obtain ⟨short, directory, later⟩ := way
        rw [if_neg inward]
        exact ⟨short, directories _ directory, ih later⟩

theorem IsWay.makeWay_eq (way : files.IsWay here names) (made : Bool) :
    files.makeWay made here names = (files, none) := by
  induction names generalizing here with
  | nil => rfl
  | cons name rest ih =>
      unfold IsWay at way
      unfold makeWay
      split at way
      · rename_i up
        rw [if_pos up]
        exact ih way
      · rename_i inward
        obtain ⟨short, directory, later⟩ := way
        rw [if_neg inward, if_neg (not_lt_of_ge short), isDirectory_iff.mp directory]
        exact ih later

theorem isDirectory_put_directory (directory : files.IsDirectory other) (location : Location) :
    (files.put location .directory).IsDirectory other := by
  rw [isDirectory_iff] at directory ⊢
  by_cases same : other = location
  · subst same
    by_cases outermost : other = []
    · subst outermost
      rfl
    · exact node?_put files .directory outermost
  · rw [node?_put_of_ne files _ same]
    exact directory

theorem isDirectory_makeWay (directory : files.IsDirectory other) :
    (files.makeWay made here names).1.IsDirectory other := by
  induction names generalizing made here files with
  | nil => exact directory
  | cons name rest ih =>
      unfold makeWay
      split
      · exact ih directory
      · split
        · exact directory
        · split
          · exact ih directory
          · exact ih (isDirectory_put_directory directory (here ++ [name]))
          · exact directory

theorem isWay_of_makeWay (succeeds : (files.makeWay made here names).2 = none) :
    (files.makeWay made here names).1.IsWay here names := by
  -- Along the names, for any files: each step starts from those that the one before has left.
  induction names generalizing made here files with
  | nil => trivial
  | cons name rest ih =>
      unfold makeWay at succeeds ⊢
      unfold IsWay
      by_cases up : name = Path.upward
      · simp only [if_pos up] at succeeds ⊢
        exact ih succeeds
      · simp only [if_neg up] at succeeds ⊢
        split at succeeds
        · cases succeeds
        · rename_i short
          rw [if_neg short]
          refine ⟨not_lt.mp short, ?_⟩
          split at succeeds
          · rename_i directory
            exact ⟨isDirectory_makeWay (isDirectory_iff.mpr directory), ih succeeds⟩
          · have new : (files.put (here ++ [name]) .directory).IsDirectory (here ++ [name]) :=
              isDirectory_iff.mpr (node?_put files .directory (by simp))
            exact ⟨isDirectory_makeWay new, ih succeeds⟩
          · cases succeeds

/-- Making a way changes nothing but what lies on it. -/
theorem node?_makeWay (apart : other ∉ Path.stations here names) :
    (files.makeWay made here names).1.node? other = files.node? other := by
  induction names generalizing made here files with
  | nil => rfl
  | cons name rest ih =>
      rw [Path.stations, List.mem_cons, not_or] at apart
      obtain ⟨different, later⟩ := apart
      unfold makeWay
      split
      · rename_i up
        rw [if_pos up] at later
        exact ih later
      · rename_i inward
        rw [if_neg inward] at different later
        split
        · rfl
        · split
          · exact ih later
          · rw [ih later, node?_put_of_ne files _ different]
          · rfl

/-- The directory that the path leads to is there, and so are those on the way to it. -/
structure HasDirectory (files : Files) (path : String) : Prop where
  noNull : Path.nullPosition? path = none
  short : path.utf8ByteSize ≤ Path.longestPath
  way : files.IsWay [] (Path.names path)

theorem HasDirectory.makeDirectory_eq (has : files.HasDirectory path) :
    files.makeDirectory path = (files, none) := by
  rw [makeDirectory, has.noNull, if_neg (by simp), if_neg (not_lt_of_ge has.short)]
  exact has.way.makeWay_eq false

theorem hasDirectory_of_makeDirectory (succeeds : (files.makeDirectory path).2 = none) :
    (files.makeDirectory path).1.HasDirectory path := by
  unfold makeDirectory at *
  split at succeeds
  · cases succeeds
  · rename_i noNull
    rw [if_neg noNull]
    split at succeeds
    · cases succeeds
    · rename_i short
      rw [if_neg short]
      exact ⟨Option.not_isSome_iff_eq_none.mp noNull, not_lt.mp short, isWay_of_makeWay succeeds⟩

theorem node?_makeDirectory (apart : other ∉ Path.stations [] (Path.names path)) :
    (files.makeDirectory path).1.node? other = files.node? other := by
  unfold makeDirectory
  split
  · rfl
  · split
    · rfl
    · exact node?_makeWay apart

structure IsOpenable (files : Files) (path : String) : Prop where
  parent : ∀ parent, Path.parent? path = some parent → files.HasDirectory parent
  noNull : Path.nullPosition? path = none
  withinReach : Path.IsWithinReach path
  ready : files.IsReady (Path.location path)

theorem IsOpenable.of_changesAround (openable : files.IsOpenable path)
    (changes : ChangesAround (Path.location path) files after)
    (ready : after.IsReady (Path.location path)) : after.IsOpenable path where
  parent parent cut := by
    obtain ⟨noNull, short, way⟩ := openable.parent parent cut
    exact ⟨noNull, short, way.mono fun other => (changes.directories other).mpr⟩
  noNull := openable.noNull
  withinReach := openable.withinReach
  ready := ready

theorem IsOpenable.save (openable : files.IsOpenable path) (store : Store) :
    (files.save path store).IsOpenable path := by
  have free := openable.ready.not_isDirectory
  exact openable.of_changesAround (changesAround_write free store)
    (openable.ready.toIsClear.write free store)

theorem IsOpenable.closeStore (openable : files.IsOpenable path) :
    (files.closeStore path).IsOpenable path :=
  openable.of_changesAround (files.tidies_closeLog _).changesAround openable.ready.closeLog

theorem IsOpenable.prepare_eq (openable : files.IsOpenable path) :
    files.prepare path = (files, .ok ()) := by
  unfold prepare
  split
  · rfl
  · rename_i parent cut
    rw [(openable.parent parent cut).makeDirectory_eq]

theorem IsOpenable.locate_eq (openable : files.IsOpenable path) :
    files.locate path = .ok (Path.location path) := by
  rw [locate, openable.noNull]
  exact if_pos ⟨openable.withinReach, openable.ready.not_isDirectory⟩

theorem IsOpenable.exists_openStore (openable : files.IsOpenable path) :
    ∃ store, (files.openStore path).2 = .ok store := by
  obtain ⟨held, text, lies⟩ := openable.ready.stored
  have touched : files.touch (Path.location path) = files := by
    rw [touch, lies]
  obtain ⟨store, opened⟩ := openable.ready.exists_openFile
  refine ⟨store, ?_⟩
  rw [openStore, openable.prepare_eq]
  simp only [openable.locate_eq, touched, opened]

theorem hasDirectory_of_prepare (prepared : (files.prepare path).2 = .ok ())
    (cut : Path.parent? path = some parent) : (files.prepare path).1.HasDirectory parent := by
  unfold prepare at prepared ⊢
  simp only [cut] at prepared ⊢
  split at prepared
  · rename_i next way
    have has := hasDirectory_of_makeDirectory (congrArg Prod.snd way)
    rw [way] at has
    exact has
  · cases prepared

theorem node?_prepare (apart : other ∉ Path.stations [] (Path.names path)) :
    (files.prepare path).1.node? other = files.node? other := by
  unfold prepare
  split
  · rfl
  · rename_i parent cut
    have apartToo : other ∉ Path.stations [] (Path.names parent) := fun onWay =>
      apart (Path.stations_parent_subset cut onWay)
    have same : (files.makeDirectory parent).1.node? other = files.node? other :=
      node?_makeDirectory apartToo
    split
    all_goals
      rename_i way
      rw [way] at same
      exact same

theorem withinReach_of_locate (found : files.locate path = .ok location) :
    Path.nullPosition? path = none ∧ Path.IsWithinReach path := by
  unfold locate at found
  split at found
  · cases found
  · rename_i noNull
    split at found
    · rename_i reachable
      exact ⟨noNull, reachable.1⟩
    · cases found

theorem exists_of_openStore (opened : (files.openStore path).2 = .ok store) :
    (files.prepare path).2 = .ok () ∧ Path.nullPosition? path = none ∧ Path.IsWithinReach path ∧
      files.openStore path =
        ((files.prepare path).1.touch (Path.location path)).openFile (Path.location path) := by
  unfold openStore at opened ⊢
  split at opened
  · cases opened
  · rename_i next way
    rw [way]
    split at opened
    · cases opened
    · rename_i found
      obtain ⟨noNull, withinReach⟩ := withinReach_of_locate found
      cases eq_location_of_locate found
      exact ⟨rfl, noNull, withinReach, rfl⟩

theorem changesAround_openStore (opened : (files.openStore path).2 = .ok store) :
    ChangesAround (Path.location path) (files.prepare path).1 (files.openStore path).1 := by
  obtain ⟨-, -, -, same⟩ := exists_of_openStore opened
  rw [same] at opened ⊢
  exact (changesAround_touch _ _).trans (isReady_of_openFile opened).2

/-- A store that was opened can be opened again. -/
theorem isOpenable_of_openStore (opened : (files.openStore path).2 = .ok store) :
    (files.openStore path).1.IsOpenable path := by
  have changes := changesAround_openStore opened
  obtain ⟨prepared, noNull, withinReach, same⟩ := exists_of_openStore opened
  rw [same] at opened changes ⊢
  refine ⟨fun parent cut => ?_, noNull, withinReach, (isReady_of_openFile opened).1⟩
  obtain ⟨noNull, short, way⟩ := hasDirectory_of_prepare prepared cut
  exact ⟨noNull, short, way.mono fun other => (changes.directories other).mpr⟩

/-- Opening a store changes nothing but what lies on the way to it, and the files beside it. -/
theorem node?_openStore (opened : (files.openStore path).2 = .ok store)
    (apart : other ∉ Path.stations [] (Path.names path))
    (notBeside : other ∉ (Path.location path).companions) :
    (files.openStore path).1.node? other = files.node? other := by
  have onWay := Path.location_mem_stations (location_ne_nil_of_openStore opened)
  have different := ne_of_mem_of_not_mem onWay apart
  rw [(changesAround_openStore opened).elsewhere other different.symm notBeside, node?_prepare apart]

end Agenda.Files
