import Agenda.Session
import Mathlib.Data.List.TakeWhile

/-! The way to the directory that holds a file is the way to the file without its last step. -/

namespace Agenda

namespace Path

variable {path parent directory name : String} {here : Location} {first later : List String}
  {chars piece : List Char}

theorem resolve_append (here : Location) (first later : List String) :
    resolve here (first ++ later) = resolve (resolve here first) later := by
  induction first generalizing here with
  | nil => rfl
  | cons name rest ih =>
      simp only [List.cons_append, resolve]
      split
      · exact ih here.dropLast
      · exact ih (here ++ [name])

theorem stations_append (here : Location) (first later : List String) :
    stations here (first ++ later) = stations here first ++ stations (resolve here first) later := by
  induction first generalizing here with
  | nil => rfl
  | cons name rest ih =>
      simp only [List.cons_append, stations, resolve, List.cons.injEq, true_and]
      split
      · exact ih here.dropLast
      · exact ih (here ++ [name])

theorem resolve_mem_stations (here : Location) {names : List String} (nonempty : names ≠ []) :
    resolve here names ∈ stations here names := by
  induction names generalizing here with
  | nil => contradiction
  | cons name rest ih =>
      cases rest with
      | nil => simp [resolve, stations]
      | cons next more =>
          rw [resolve, stations]
          split
          · exact List.mem_cons_of_mem _ (ih here.dropLast (List.cons_ne_nil next more))
          · exact List.mem_cons_of_mem _ (ih (here ++ [name]) (List.cons_ne_nil next more))

theorem location_mem_stations (inner : location path ≠ []) : location path ∈ stations [] (names path) := by
  apply resolve_mem_stations
  intro none
  rw [location, none] at inner
  exact inner rfl

theorem slash_notMem_of_mem_splitOn (member : piece ∈ chars.splitOn '/') : '/' ∉ piece := by
  induction chars generalizing piece with
  | nil =>
      rw [List.splitOn_nil, List.mem_singleton] at member
      simp [member]
  | cons char rest ih =>
      rw [List.splitOn_cons_eq_if_modifyHead] at member
      cases same : rest.splitOn '/' with
      | nil => exact absurd same (List.splitOn_ne_nil '/' rest)
      | cons first more =>
          rw [same] at ih member
          split at member
          · rcases List.mem_cons.mp member with empty | later
            · simp [empty]
            · exact ih later
          · rename_i plain
            rcases List.mem_cons.mp member with longer | later
            · have free := ih (List.mem_cons_self (a := first) (l := more))
              rw [beq_iff_eq] at plain
              rw [longer, List.mem_cons, not_or]
              exact ⟨fun same => plain same.symm, free⟩
            · exact ih (List.mem_cons_of_mem first later)

def namesOf (pieces : List (List Char)) : List String :=
  (pieces.filter fun piece => decide (¬ IsIdle piece)).map String.ofList

theorem names_eq (path : String) : names path = namesOf (pieces path) := rfl

theorem namesOf_append (first later : List (List Char)) :
    namesOf (first ++ later) = namesOf first ++ namesOf later := by
  simp [namesOf]

theorem namesOf_reverse_dropWhile (pieces : List (List Char)) :
    namesOf (pieces.dropWhile fun piece => decide (IsIdle piece)).reverse =
      namesOf pieces.reverse := by
  have idle : namesOf (pieces.takeWhile fun piece => decide (IsIdle piece)).reverse = [] := by
    simp only [namesOf, List.map_eq_nil_iff, List.filter_eq_nil_iff, List.mem_reverse]
    intro piece member
    simpa using List.mem_takeWhile_imp member
  have whole := congrArg List.reverse
    (List.takeWhile_append_dropWhile (p := fun piece => decide (IsIdle piece)) (l := pieces))
  rw [← whole, List.reverse_append, namesOf_append, idle, List.append_nil]

theorem names_ofList_intercalate {left : List (List Char)} (free : ∀ piece ∈ left, '/' ∉ piece) :
    names (if left = [] then "/" else String.ofList (['/'].intercalate left)) = namesOf left := by
  by_cases empty : left = []
  · subst empty
    decide
  · rw [if_neg empty, names_eq, Path.pieces, String.toList_ofList, List.splitOn_intercalate '/' free empty]

/-- The way to the directory of a file is the way to the file without its last step. -/
theorem exists_names_eq_of_parent? (cut : parent? path = some parent) :
    ∃ name, names path = names parent ++ [name] := by
  unfold parent? at cut
  split at cut
  · cases cut
  · rename_i last before dropped
    have shown : ¬ IsIdle last := by
      have first := List.head?_dropWhile_not (fun piece => decide (IsIdle piece)) (pieces path).reverse
      rw [dropped] at first
      simpa using first
    cases cut
    refine ⟨String.ofList last, ?_⟩
    -- The pieces come from splitting at slashes, so joined they are split into the same pieces.
    have free : ∀ piece ∈ (before.dropWhile fun piece => decide (IsIdle piece)).reverse, '/' ∉ piece := by
      intro piece member
      have inBefore := (List.dropWhile_suffix _).subset (List.mem_reverse.mp member)
      have inPieces : piece ∈ (pieces path).reverse := by
        apply (List.dropWhile_suffix _).subset
        rw [dropped]
        exact List.mem_cons_of_mem last inBefore
      exact slash_notMem_of_mem_splitOn (List.mem_reverse.mp inPieces)
    have whole := namesOf_reverse_dropWhile (pieces path).reverse
    rw [dropped, List.reverse_reverse, List.reverse_cons, namesOf_append] at whole
    rw [names_ofList_intercalate free, namesOf_reverse_dropWhile, names_eq, ← whole]
    simp [namesOf, shown]

theorem stations_parent_subset (cut : parent? path = some parent) :
    stations [] (names parent) ⊆ stations [] (names path) := by
  obtain ⟨name, same⟩ := exists_names_eq_of_parent? cut
  rw [same, stations_append]
  exact List.subset_append_left _ _

theorem names_append_slash (directory path : String) :
    names (directory ++ "/" ++ path) = names directory ++ names path := by
  have joined : (directory ++ "/" ++ path).toList = directory.toList ++ '/' :: path.toList := by
    simp [String.toList_append]
  rw [names_eq, pieces, joined, List.splitOn_append_cons_self, namesOf_append]
  rfl

theorem resolve_eq_append (plain : upward ∉ first) : resolve here first = here ++ first := by
  induction first generalizing here with
  | nil => simp [resolve]
  | cons name rest ih =>
      rw [List.mem_cons, not_or] at plain
      obtain ⟨inward, later⟩ := plain
      have different : ¬ name = upward := fun same => inward same.symm
      rw [resolve, if_neg different, ih later, List.append_assoc]
      rfl

theorem length_le_of_mem_stations {station : Location} (member : station ∈ stations here first) :
    station.length ≤ here.length + first.length := by
  induction first generalizing here with
  | nil => cases member
  | cons name rest ih =>
      have short : (if name = upward then here.dropLast else here ++ [name]).length ≤ here.length + 1 := by
        split
        · rw [List.length_dropLast]
          omega
        · rw [List.length_append, List.length_singleton]
      rw [stations, List.mem_cons] at member
      rw [List.length_cons]
      rcases member with same | later
      · rw [same]
        omega
      · have within := ih later
        omega

end Path

theorem Surroundings.join_directory_eq (surroundings : Surroundings) {path : String}
    (relative : ¬ Path.IsAbsolute path) :
    Path.join surroundings.directory path = surroundings.directory ++ "/" ++ path := by
  have ending : ∃ before, surroundings.directory = before ++ ".tasksched" := by
    unfold Surroundings.directory Path.join
    split
    · rename_i absolute
      exact absurd absolute (by decide)
    · split
      · exact ⟨_, rfl⟩
      · exact ⟨_, rfl⟩
  obtain ⟨before, same⟩ := ending
  have plain : ¬ (surroundings.directory = "" ∨ Path.EndsWithSlash surroundings.directory) := by
    rw [same]
    simp [Path.EndsWithSlash, String.toList_append]
  rw [Path.join, if_neg relative, if_neg plain]

theorem Surroundings.location_settingsFile (surroundings : Surroundings) :
    Path.location surroundings.settingsFile = Path.location surroundings.directory ++ ["rc"] := by
  have last : Path.names "rc" = ["rc"] := by decide
  rw [settingsFile, surroundings.join_directory_eq (by decide), Path.location, Path.names_append_slash,
    last, Path.resolve_append]
  rfl

theorem Surroundings.name_location_settingsFile (surroundings : Surroundings) :
    (Path.location surroundings.settingsFile).name = "rc" := by
  rw [surroundings.location_settingsFile]
  simp [Location.name]

end Agenda
