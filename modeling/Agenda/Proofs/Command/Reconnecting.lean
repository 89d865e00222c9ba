import Agenda.Proofs.Command.Selected
import Agenda.Proofs.Files.Reopening

/-! A command leaves the files such that the next one connects with the same settings, unless the way to the
store leads through the file of the settings. -/

namespace Agenda

variable {surroundings : Surroundings} {files after : Files} {settings : Settings} {session : Session}
  {location : Location}

/-- The way to the store does not lead through the file of the settings, and does not end there. -/
def Settings.IsApartFrom (settings : Settings) (surroundings : Surroundings) : Prop :=
  Path.location surroundings.settingsFile ∉ Path.stations [] (Path.names settings.location)

instance (settings : Settings) (surroundings : Surroundings) :
    Decidable (settings.IsApartFrom surroundings) := by
  unfold Settings.IsApartFrom
  infer_instance

/-- The store that is used if nothing is set lies beside the settings. -/
theorem Settings.isApartFrom_default (plain : Path.upward ∉ Path.names surroundings.directory) :
    (Settings.default surroundings.directory).IsApartFrom surroundings := by
  have location : (Settings.default surroundings.directory).location =
      surroundings.directory ++ "/" ++ Settings.defaultFile := by
    have relative : ¬ Path.IsAbsolute Settings.defaultFile := by decide
    exact surroundings.join_directory_eq relative
  have last : Path.names Settings.defaultFile = [Settings.defaultFile] := by decide
  rw [IsApartFrom, location, Path.names_append_slash, last, Path.stations_append,
    surroundings.location_settingsFile, List.mem_append, not_or]
  constructor
  · intro onWay
    have short := Path.length_le_of_mem_stations onWay
    rw [Path.location, Path.resolve_eq_append plain, List.nil_append, List.length_append] at short
    simp only [List.length_singleton, List.length_nil] at short
    omega
  · intro beside
    have same := List.append_cancel_left (List.mem_singleton.mp beside)
    exact absurd same (by decide)

theorem location_settingsFile_ne_beside {ending : String} {char : Char}
    (ends : ending.toList.getLast? = some char) (other : char ≠ 'c') :
    Path.location surroundings.settingsFile ≠ location.beside ending := by
  intro same
  have names := congrArg (fun place => place.name.toList.getLast?) same
  simp only [surroundings.name_location_settingsFile, location.name_beside, String.toList_append,
    List.getLast?_append, ends, Option.some_or] at names
  exact other (Option.some.inj names).symm

theorem location_settingsFile_notMem_companions :
    Path.location surroundings.settingsFile ∉ location.companions := by
  have journal : Path.location surroundings.settingsFile ≠ location.journal :=
    location_settingsFile_ne_beside (show _ = some 'l' by decide) (by decide)
  have log : Path.location surroundings.settingsFile ≠ location.log :=
    location_settingsFile_ne_beside (show _ = some 'l' by decide) (by decide)
  have index : Path.location surroundings.settingsFile ≠ location.index :=
    location_settingsFile_ne_beside (show _ = some 'm' by decide) (by decide)
  simp [Location.companions, journal, log, index]

theorem loadSettings_congr
    (same : after.node? (Path.location surroundings.settingsFile) =
      files.node? (Path.location surroundings.settingsFile)) :
    loadSettings surroundings after = loadSettings surroundings files := by
  simp only [loadSettings, readSettings, same]

/-- A command that finds these files connects to a store with these settings. -/
structure Files.Serves (surroundings : Surroundings) (settings : Settings) (files : Files) : Prop where
  loaded : loadSettings surroundings files = .ok settings
  openable : files.IsOpenable settings.location
  apart : Path.location surroundings.settingsFile ≠ settings.place

theorem Files.Serves.exists_session (serves : files.Serves surroundings settings) :
    ∃ session, (connect surroundings files).2 = .ok session ∧ session.settings = settings := by
  obtain ⟨store, opened⟩ := serves.openable.exists_openStore
  refine ⟨⟨settings, store⟩, ?_, rfl⟩
  rw [connect_of_loaded serves.loaded, opened]
  rfl

theorem Files.Serves.of_changesAround (serves : files.Serves surroundings settings)
    (changes : Files.ChangesAround settings.place files after)
    (openable : after.IsOpenable settings.location) : after.Serves surroundings settings where
  loaded := by
    rw [loadSettings_congr (changes.elsewhere _ serves.apart location_settingsFile_notMem_companions)]
    exact serves.loaded
  openable := openable
  apart := serves.apart

theorem Files.Serves.closeStore (serves : files.Serves surroundings settings) :
    (files.closeStore settings.location).Serves surroundings settings :=
  serves.of_changesAround (files.tidies_closeLog _).changesAround serves.openable.closeStore

theorem Files.Serves.save (serves : files.Serves surroundings settings) (store : Store) :
    (files.save settings.location store).Serves surroundings settings :=
  serves.of_changesAround (Files.changesAround_write serves.openable.ready.not_isDirectory store)
    (serves.openable.save store)

theorem serves_of_connect (connected : (connect surroundings files).2 = .ok session)
    (apart : session.settings.IsApartFrom surroundings) :
    (connect surroundings files).1.Serves surroundings session.settings := by
  have loaded := (loaded_of_connect connected).1
  rw [connect_of_loaded loaded] at connected ⊢
  obtain ⟨store, opening, -⟩ := map_eq_ok_iff.mp connected
  have opened := mapError_eq_ok_iff.mp opening
  have openable := Files.isOpenable_of_openStore opened
  have settled := Files.node?_openStore opened apart location_settingsFile_notMem_companions
  have onWay := Path.location_mem_stations (Files.location_ne_nil_of_openStore opened)
  exact ⟨(loadSettings_congr settled).trans loaded, openable, (ne_of_mem_of_not_mem onWay apart).symm⟩

theorem Files.Serves.afterSetback (serves : files.Serves surroundings settings) (setback : Setback) :
    (files.afterSetback settings.location setback).Serves surroundings settings := by
  cases setback with
  | failure _ => exact serves.closeStore
  | refusal refusal =>
      simp only [Files.afterSetback]
      split
      · exact serves
      · exact serves.closeStore

theorem Files.Serves.afterWork (serves : files.Serves surroundings settings) (written : Option Store) :
    (files.afterWork settings.location written).Serves surroundings settings := by
  cases written with
  | none => exact serves.closeStore
  | some store => exact (serves.save store).closeStore

theorem serves_perform (connected : (connect surroundings files).2 = .ok session)
    (serves : (connect surroundings files).1.Serves surroundings session.settings)
    (act : Nat → Store → Except Setback Done) :
    (perform surroundings act files).1.Serves surroundings session.settings := by
  unfold perform
  cases opened : connect surroundings files with
  | mk next outcome =>
      rw [opened] at serves connected
      cases connected
      simp only at serves ⊢
      split
      · simp only
        exact serves.afterSetback _
      · simp only
        exact serves.afterWork _

/-- Where a command could connect to a store, a command can connect to it with the same settings after the
program has run. -/
theorem exists_session_after_run (connected : (connect surroundings files).2 = .ok session)
    (apart : session.settings.IsApartFrom surroundings) (arguments : List String) :
    ∃ again, (connect surroundings (run surroundings arguments files).1).2 = .ok again ∧
      again.settings = session.settings := by
  have serves := serves_of_connect connected apart
  unfold run
  split
  · exact ⟨session, connected, rfl⟩
  · exact ⟨session, connected, rfl⟩
  · unfold Command.run
    split
    · exact ⟨session, connected, rfl⟩
    · exact ⟨session, connected, rfl⟩
    · exact (serves_perform connected serves _).exists_session

end Agenda
