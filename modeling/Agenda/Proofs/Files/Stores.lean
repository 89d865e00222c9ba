import Agenda.Files.Opening

/-! The store at each location, where nothing counts as a store without tasks. Opening may remove what lies
beside a store, but brings no tasks with it. -/

namespace Agenda

def Node.contents : Node → Store
  | .store held _ => held
  | .directory | .document _ => .empty

namespace Location

/-- Where the files beside the store at a location lie. -/
def companions (location : Location) : List Location :=
  [location.journal, location.log, location.index]

theorem journal_mem_companions (location : Location) : location.journal ∈ location.companions := by
  simp [companions]

theorem log_mem_companions (location : Location) : location.log ∈ location.companions := by
  simp [companions]

theorem index_mem_companions (location : Location) : location.index ∈ location.companions := by
  simp [companions]

theorem name_beside (location : Location) (ending : String) :
    (location.beside ending).name = location.name ++ ending := by
  simp [beside, name]

theorem beside_ne (location : Location) {ending : String} (nonempty : ending ≠ "") :
    location.beside ending ≠ location := by
  intro same
  have names := location.name_beside ending
  rw [same] at names
  exact nonempty (String.append_eq_left_iff.mp names.symm)

theorem notMem_companions (location : Location) : location ∉ location.companions := by
  simp only [companions, List.mem_cons, List.not_mem_nil, or_false, not_or]
  exact ⟨(location.beside_ne (by decide)).symm, (location.beside_ne (by decide)).symm,
    (location.beside_ne (by decide)).symm⟩

end Location

namespace Files

variable {files before next after : Files} {location other : Location} {node : Node} {store : Store}

/-- The store at a location. -/
def storeAt (files : Files) (location : Location) : Store :=
  (files.node? location).elim .empty Node.contents

theorem storeAt_eq_of_node? (lies : files.node? location = some node) :
    files.storeAt location = node.contents := by
  rw [storeAt, lies]
  rfl

theorem storeAt_eq_empty_of_node? (free : files.node? location = none) :
    files.storeAt location = .empty := by
  rw [storeAt, free]
  rfl

theorem storeAt_put_cases (files : Files) (location other : Location) (node : Node) :
    (files.put location node).storeAt other = files.storeAt other ∨
      other = location ∧ (files.put location node).storeAt other = node.contents := by
  by_cases here : other = location
  · subst here
    by_cases outermost : other = []
    · subst outermost
      exact .inl rfl
    · exact .inr ⟨rfl, storeAt_eq_of_node? (node?_put files node outermost)⟩
  · rw [storeAt, node?_put_of_ne files node here]
    exact .inl rfl

theorem node?_erase_of_ne (files : Files) (different : other ≠ location) :
    (files.erase location).node? other = files.node? other := by
  by_cases directory : files.IsDirectory location
  · rw [erase, if_pos directory]
  · by_cases outermost : other = []
    · rw [node?, node?, if_pos outermost, if_pos outermost]
    · rw [node?_eq outermost, node?_eq outermost, erase, if_neg directory, List.find?_filter]
      congr 2
      funext entry
      by_cases here : entry.1 = other
      · simp [here, different]
      · simp [here]

/-- Only some places may have lost the store that they had. All other stores are as before. -/
def LosesOnlyAt (before : Files) (places : List Location) (after : Files) : Prop :=
  ∀ location, after.storeAt location = before.storeAt location ∨
    location ∈ places ∧ after.storeAt location = .empty

variable {places : List Location}

theorem LosesOnlyAt.refl (files : Files) (places : List Location) : files.LosesOnlyAt places files :=
  fun _ => .inl rfl

theorem LosesOnlyAt.trans (first : before.LosesOnlyAt places next)
    (second : next.LosesOnlyAt places after) : before.LosesOnlyAt places after := by
  intro location
  rcases second location with same | empty
  · rw [same]
    exact first location
  · exact .inr empty

theorem LosesOnlyAt.storeAt_eq (loses : before.LosesOnlyAt places after)
    (elsewhere : location ∉ places) : after.storeAt location = before.storeAt location := by
  rcases loses location with same | ⟨member, -⟩
  · exact same
  · exact absurd member elsewhere

theorem losesOnlyAt_put (files : Files) (location : Location) (places : List Location)
    (unused : files.storeAt location = .empty) (bare : node.contents = .empty) :
    files.LosesOnlyAt places (files.put location node) := by
  intro other
  rcases storeAt_put_cases files location other node with same | ⟨rfl, put⟩
  · exact .inl same
  · exact .inl (put.trans (bare.trans unused.symm))

theorem losesOnlyAt_put_of_mem (files : Files) (member : location ∈ places)
    (bare : node.contents = .empty) : files.LosesOnlyAt places (files.put location node) := by
  intro other
  rcases storeAt_put_cases files location other node with same | ⟨rfl, put⟩
  · exact .inl same
  · exact .inr ⟨member, put.trans bare⟩

theorem losesOnlyAt_erase (files : Files) (member : location ∈ places) :
    files.LosesOnlyAt places (files.erase location) := by
  intro other
  by_cases here : other = location
  · subst here
    by_cases directory : files.IsDirectory other
    · rw [erase, if_pos directory]
      exact .inl rfl
    · exact .inr ⟨member, storeAt_eq_empty_of_node? (node?_erase directory)⟩
  · rw [storeAt, node?_erase_of_ne files here]
    exact .inl rfl

theorem losesOnlyAt_touch (files : Files) (location : Location) (places : List Location) :
    files.LosesOnlyAt places (files.touch location) := by
  simp only [touch]
  split
  · rename_i free
    exact files.losesOnlyAt_put location places (storeAt_eq_empty_of_node? free) rfl
  · exact .refl files places

theorem losesOnlyAt_makeWay (made : Bool) (here : Location) (names : List String) (files : Files)
    (places : List Location) : files.LosesOnlyAt places (files.makeWay made here names).1 := by
  induction names generalizing made here files with
  | nil => exact .refl files places
  | cons name rest ih =>
      simp only [makeWay]
      split
      · exact ih made here.dropLast files
      · split
        · exact .refl files places
        · split
          · exact ih made (here ++ [name]) files
          · rename_i free
            have made : files.LosesOnlyAt places (files.put (here ++ [name]) .directory) :=
              files.losesOnlyAt_put _ places (storeAt_eq_empty_of_node? free) rfl
            exact made.trans (ih true (here ++ [name]) _)
          · exact .refl files places

theorem losesOnlyAt_makeDirectory (files : Files) (path : String) (places : List Location) :
    files.LosesOnlyAt places (files.makeDirectory path).1 := by
  simp only [makeDirectory]
  split
  · exact .refl files places
  · split
    · exact .refl files places
    · exact files.losesOnlyAt_makeWay false [] (Path.names path) places

theorem losesOnlyAt_prepare (files : Files) (path : String) (places : List Location) :
    files.LosesOnlyAt places (files.prepare path).1 := by
  simp only [prepare]
  split
  · exact .refl files places
  · rename_i parent _
    have made := files.losesOnlyAt_makeDirectory parent places
    split
    all_goals
      rename_i way
      rw [way] at made
      exact made

/-- Files beside the store at a location were removed, and indices to its log made. -/
inductive Tidies (location : Location) (before : Files) : Files → Prop where
  | refl : Tidies location before before
  | erase {files : Files} {other : Location} : Tidies location before files →
      other ∈ location.companions → Tidies location before (files.erase other)
  | index {files : Files} : Tidies location before files → ¬ files.IsDirectory location.index →
      Tidies location before (files.put location.index (.document indexText))

theorem Tidies.losesOnlyAt (tidies : Tidies location before after) :
    before.LosesOnlyAt location.companions after := by
  induction tidies with
  | refl => exact .refl before _
  | erase _ beside ih => exact ih.trans (losesOnlyAt_erase _ beside)
  | index _ _ ih => exact ih.trans (losesOnlyAt_put_of_mem _ location.index_mem_companions rfl)

theorem Tidies.node?_eq (tidies : Tidies location before after) (apart : other ∉ location.companions) :
    after.node? other = before.node? other := by
  induction tidies with
  | refl => rfl
  | @erase files place _ beside ih =>
      have different := ne_of_mem_of_not_mem beside apart
      rw [node?_erase_of_ne files different.symm, ih]
  | @index files _ _ ih =>
      have different := ne_of_mem_of_not_mem location.index_mem_companions apart
      rw [node?_put_of_ne files _ different.symm, ih]

theorem tidies_clearJournal (files : Files) (location : Location) :
    Tidies location files (files.clearJournal location).1 := by
  simp only [clearJournal]
  split
  · exact .refl
  · split
    · exact Tidies.refl.erase location.journal_mem_companions
    · exact .refl

theorem tidies_openLog (files : Files) (location : Location) :
    Tidies location files (files.openLog location).1 := by
  simp only [openLog]
  split
  · exact .refl
  · split
    · exact .refl
    · split
      · exact Tidies.refl.erase location.log_mem_companions
      · split
        · exact .refl
        · rename_i free
          exact Tidies.refl.index free

theorem tidies_closeLog (files : Files) (location : Location) :
    Tidies location files (files.closeLog location) := by
  simp only [closeLog]
  split
  · exact (Tidies.refl.erase location.log_mem_companions).erase location.index_mem_companions
  · exact .refl

theorem exists_write_eq_put (files : Files) (location : Location) (store : Store) :
    ∃ next, Tidies location files next ∧ files.write location store = next.put location (.store store none) := by
  simp only [write]
  split
  · exact ⟨files, .refl, rfl⟩
  · exact ⟨files.erase location.journal, Tidies.refl.erase location.journal_mem_companions, rfl⟩

/-- The store at a location may be another one afterwards. All other stores are as before, but for what
may be lost beside it. -/
structure Leaves (before : Files) (location : Location) (store : Store) (after : Files) : Prop where
  here : after.storeAt location = store
  elsewhere : ∀ other, other ≠ location → after.storeAt other = before.storeAt other ∨
    other ∈ location.companions ∧ after.storeAt other = .empty

theorem LosesOnlyAt.leaves (loses : before.LosesOnlyAt location.companions after) :
    before.Leaves location (before.storeAt location) after where
  here := loses.storeAt_eq location.notMem_companions
  elsewhere other _ := loses other

theorem Leaves.following (leaves : next.Leaves location store after)
    (loses : before.LosesOnlyAt location.companions next) : before.Leaves location store after where
  here := leaves.here
  elsewhere other different := by
    rcases leaves.elsewhere other different with same | lost
    · rw [same]
      exact loses other
    · exact .inr lost

theorem Leaves.followedBy (leaves : before.Leaves location store next)
    (loses : next.LosesOnlyAt location.companions after) : before.Leaves location store after where
  here := (loses.storeAt_eq location.notMem_companions).trans leaves.here
  elsewhere other different := by
    rcases loses other with same | lost
    · rw [same]
      exact leaves.elsewhere other different
    · exact .inr lost

theorem leaves_write (files : Files) (store : Store) (inner : location ≠ []) :
    files.Leaves location store (files.write location store) := by
  obtain ⟨next, tidies, written⟩ := files.exists_write_eq_put location store
  rw [written]
  refine Leaves.following ⟨storeAt_eq_of_node? (node?_put next _ inner), fun other different => ?_⟩
    tidies.losesOnlyAt
  rw [storeAt, node?_put_of_ne next _ different]
  exact .inl rfl

theorem storeAt_eq_empty_of_vacant (vacant : Vacant (files.node? location)) :
    files.storeAt location = .empty := by
  cases lies : files.node? location with
  | none => exact storeAt_eq_empty_of_node? lies
  | some node =>
      rw [storeAt_eq_of_node? lies]
      cases node with
      | directory => rfl
      | document text => rfl
      | store held text =>
          rw [lies] at vacant
          exact vacant.elim

theorem losesOnlyAt_start (files : Files) (unused : files.storeAt location = .empty) :
    files.LosesOnlyAt location.companions (files.start location).1 := by
  simp only [start]
  split
  · exact .refl files _
  · obtain ⟨next, tidies, written⟩ := files.exists_write_eq_put location .empty
    have loses := tidies.losesOnlyAt
    rw [written]
    have stillUnused := (loses.storeAt_eq location.notMem_companions).trans unused
    exact loses.trans (next.losesOnlyAt_put location _ stillUnused rfl)

theorem eq_empty_of_start (started : (files.start location).2 = .ok store) : store = .empty := by
  simp only [start] at started
  split at started
  · cases started
  · cases started
    rfl

/-- What comes of opening a store: the files afterwards, and the store if there is one, which is the one at
its location. -/
structure Opens (files : Files) (location : Location)
    (outcome : Files × Except OpeningFault Store) : Prop where
  losesOnlyAt : files.LosesOnlyAt location.companions outcome.1
  store : ∀ store, outcome.2 = .ok store → store = files.storeAt location

theorem opens_fault (loses : before.LosesOnlyAt location.companions after) (fault : OpeningFault) :
    before.Opens location (after, .error fault) where
  losesOnlyAt := loses
  store _ impossible := by cases impossible

theorem Opens.following {outcome : Files × Except OpeningFault Store}
    (loses : before.LosesOnlyAt location.companions next) (opens : next.Opens location outcome) :
    before.Opens location outcome where
  losesOnlyAt := loses.trans opens.losesOnlyAt
  store store opened :=
    (opens.store store opened).trans (loses.storeAt_eq location.notMem_companions)

theorem opens_takeStore (files : Files) (location : Location) :
    files.Opens location (files.takeStore location) := by
  simp only [takeStore]
  split
  · rename_i held lies
    refine ⟨.refl files _, fun store opened => ?_⟩
    cases opened
    exact (storeAt_eq_of_node? lies).symm
  · split
    · rename_i vacant
      have unused := storeAt_eq_empty_of_vacant vacant
      refine ⟨files.losesOnlyAt_start unused, fun store opened => ?_⟩
      exact (eq_empty_of_start opened).trans unused.symm
    · exact opens_fault (files.tidies_closeLog location).losesOnlyAt .noStore

theorem opens_openFile (files : Files) (location : Location) :
    files.Opens location (files.openFile location) := by
  have cleared := (files.tidies_clearJournal location).losesOnlyAt
  simp only [openFile]
  split
  · rename_i journal
    rw [journal] at cleared
    exact opens_fault cleared _
  · rename_i next journal
    rw [journal] at cleared
    have logged := (next.tidies_openLog location).losesOnlyAt
    split
    · rename_i log
      rw [log] at logged
      exact opens_fault (cleared.trans logged) _
    · rename_i log
      rw [log] at logged
      exact (opens_takeStore _ location).following (cleared.trans logged)

theorem eq_location_of_locate {path : String} (found : files.locate path = .ok location) :
    location = Path.location path := by
  simp only [locate] at found
  split at found
  · cases found
  · split at found
    · cases found
      rfl
    · cases found

theorem opens_openStore (files : Files) (path : String) :
    files.Opens (Path.location path) (files.openStore path) := by
  have prepared := files.losesOnlyAt_prepare path (Path.location path).companions
  simp only [openStore]
  split
  · rename_i way
    rw [way] at prepared
    exact opens_fault prepared _
  · rename_i next way
    rw [way] at prepared
    split
    · exact opens_fault prepared _
    · rename_i location found
      cases eq_location_of_locate found
      have touched := next.losesOnlyAt_touch (Path.location path) (Path.location path).companions
      exact (opens_openFile _ (Path.location path)).following (prepared.trans touched)

theorem location_ne_nil_of_openStore {path : String}
    (opened : (files.openStore path).2 = .ok store) : Path.location path ≠ [] := by
  simp only [openStore] at opened
  split at opened
  · cases opened
  · split at opened
    · cases opened
    · rename_i found
      intro outermost
      simp only [locate, outermost, IsDirectory, node?, if_true, not_true_eq_false, and_false,
        if_false] at found
      split at found <;> cases found

end Files

end Agenda
