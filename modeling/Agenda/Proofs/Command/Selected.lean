import Agenda.Command.Run
import Agenda.Proofs.Command.Effect
import Agenda.Proofs.Files.Stores

/-! A command works with the store at the location that the settings name. If it is not carried out or only
reads, that store is left as it was. -/

namespace Agenda

variable {surroundings : Surroundings} {files after : Files} {settings : Settings}
  {failure : Failure} {act : Nat → Store → Except Setback Done} {outcome : Outcome}

def refused (refusal : Refusal) : Outcome := .finished 1 "" s!"Error: {refusal.message}\n"

def failed (failure : Failure) : Outcome := .finished 2 "" (printedFailure failure.messages)

theorem Refusal.outcome_eq (refusal : Refusal) : refusal.outcome = refused refusal := by
  cases refusal <;> rfl

theorem Failure.outcome_eq (failure : Failure) : failure.outcome = failed failure := by
  have noRule : ¬ ∃ cause ∈ failure.messages.map Cause.words, cause.IsRule := by
    rintro ⟨cause, member, isRule⟩
    obtain ⟨words, -, rfl⟩ := List.mem_map.mp member
    exact isRule
  have words : (failure.messages.map Cause.words).map Cause.message = failure.messages := by
    simp [Function.comp_def, Cause.message]
  rw [outcome, reportError, if_neg noRule, words, failed]

theorem Setback.code_outcome_ne_zero (setback : Setback) : setback.outcome.code ≠ 0 := by
  cases setback with
  | refusal reason =>
      rw [outcome, reason.outcome_eq]
      exact Nat.one_ne_zero
  | failure reason =>
      rw [outcome, reason.outcome_eq]
      exact Nat.succ_ne_zero 1

/-- What the user is told of work on a store. -/
def reported : Except Setback Done → Outcome
  | .error setback => setback.outcome
  | .ok (text, _) => printed text

/-- Where the store lies that the settings select. -/
def Settings.place (settings : Settings) : Location := Path.location settings.location

theorem connect_of_not_loaded (failed : loadSettings surroundings files = .error failure) :
    connect surroundings files = (files, .error failure) := by
  unfold connect
  rw [failed]

theorem connect_of_loaded (loaded : loadSettings surroundings files = .ok settings) :
    connect surroundings files = ((files.openStore settings.location).1,
      ((files.openStore settings.location).2.mapError .noStore).map (⟨settings, ·⟩)) := by
  unfold connect
  rw [loaded]
  cases opened : files.openStore settings.location with
  | mk next outcome => cases outcome <;> simp only [opened] <;> rfl

/-- What comes of connecting with these settings: the files afterwards, and the session if there is one,
with the store at the place that is selected. -/
structure Connects (settings : Settings) (files : Files)
    (connected : Files × Except Failure Session) : Prop where
  losesOnlyAt : files.LosesOnlyAt settings.place.companions connected.1
  session : ∀ session, connected.2 = .ok session →
    session = ⟨settings, files.storeAt settings.place⟩ ∧ settings.place ≠ []

theorem connects_connect (loaded : loadSettings surroundings files = .ok settings) :
    Connects settings files (connect surroundings files) := by
  have opens := files.opens_openStore settings.location
  unfold connect
  rw [loaded]
  simp only
  split
  · rename_i opened
    rw [opened] at opens
    exact ⟨opens.losesOnlyAt, fun session impossible => by cases impossible⟩
  · rename_i store opened
    have inner := Files.location_ne_nil_of_openStore (congrArg Prod.snd opened)
    rw [opened] at opens
    refine ⟨opens.losesOnlyAt, fun session connected => ?_⟩
    cases connected
    rw [opens.store store rfl]
    exact ⟨rfl, inner⟩

theorem loaded_of_connect {session : Session}
    (connected : (connect surroundings files).2 = .ok session) :
    loadSettings surroundings files = .ok session.settings ∧
      session.store = files.storeAt session.settings.place := by
  cases loaded : loadSettings surroundings files with
  | error failure =>
      rw [connect_of_not_loaded loaded] at connected
      cases connected
  | ok settings =>
      obtain ⟨same, -⟩ := (connects_connect loaded).session session connected
      subst same
      exact ⟨rfl, rfl⟩

theorem exists_session_of_isOk (opens : (connect surroundings files).2.isOk = true)
    (loaded : loadSettings surroundings files = .ok settings) :
    ∃ session, (connect surroundings files).2 = .ok session ∧ session.settings = settings := by
  cases connected : (connect surroundings files).2 with
  | error failure =>
      rw [connected] at opens
      cases opens
  | ok session =>
      have same := (loaded_of_connect connected).1.symm.trans loaded
      exact ⟨session, rfl, Except.ok.inj same⟩

/-- How work on the selected store ends, with the files and the outcome. -/
inductive Performs (act : Nat → Store → Except Setback Done) (settings : Settings) (files : Files) :
    Files × Outcome → Prop where
  | fails {after : Files} {outcome : Outcome} : outcome.code ≠ 0 →
      files.Leaves settings.place (files.storeAt settings.place) after →
        Performs act settings files (after, outcome)
  | succeeds {after : Files} {text : String} {written : Option Store} :
      act settings.limit (files.storeAt settings.place) = .ok (text, written) →
        files.Leaves settings.place (written.getD (files.storeAt settings.place)) after →
          Performs act settings files (after, printed text)

theorem performs_perform (loaded : loadSettings surroundings files = .ok settings)
    (act : Nat → Store → Except Setback Done) :
    Performs act settings files (perform surroundings act files) := by
  have connects := connects_connect loaded
  unfold perform
  split
  · rename_i connected
    rw [connected] at connects
    exact .fails (Setback.failure _).code_outcome_ne_zero connects.losesOnlyAt.leaves
  · rename_i next session connected
    rw [connected] at connects
    obtain ⟨rfl, inner⟩ := connects.session session rfl
    have loses : files.LosesOnlyAt settings.place.companions next := connects.losesOnlyAt
    have closes (files : Files) := (files.tidies_closeLog settings.place).losesOnlyAt
    simp only
    split
    · rename_i setback _
      -- Only a refusal that ends the program at once leaves the store open.
      refine .fails setback.code_outcome_ne_zero ?_
      cases setback with
      | failure _ => exact (loses.trans (closes next)).leaves
      | refusal refusal =>
          simp only [Files.afterSetback]
          split
          · exact loses.leaves
          · exact (loses.trans (closes next)).leaves
    · rename_i text written carriedOut
      refine .succeeds carriedOut ?_
      cases written with
      | none =>
          rw [Option.getD_none]
          exact (loses.trans (closes next)).leaves
      | some store => exact ((next.leaves_write store inner).following loses).followedBy (closes _)

/-- A command on the store that is carried out has its effect on the selected store. -/
theorem exists_effect_of_run {arguments : List String} {command : Command}
    (request : Request.ofArguments? arguments = some (.command command))
    (job : command.job surroundings.today = .ok (.work act))
    (loaded : loadSettings surroundings files = .ok settings)
    (succeeds : (run surroundings arguments files).2.code = 0) :
    ∃ written, command.Effect surroundings.today (files.storeAt settings.place) written ∧
      files.Leaves settings.place (written.getD (files.storeAt settings.place))
        (run surroundings arguments files).1 := by
  have performs := performs_perform loaded act
  unfold run Command.run at *
  simp only [request, job] at succeeds ⊢
  generalize perform surroundings act files = ended at performs succeeds
  cases performs with
  | fails failed _ => exact absurd succeeds failed
  | @succeeds _ _ written carriedOut leaves =>
      exact ⟨written, Command.effect_of_work job carriedOut, leaves⟩

def Store.afterWork (store : Store) : Except Setback Done → Store
  | .error _ => store
  | .ok (_, written) => written.getD store

theorem run_of_connect {arguments : List String} {command : Command} {session : Session}
    (request : Request.ofArguments? arguments = some (.command command))
    (job : command.job surroundings.today = .ok (.work act))
    (connected : (connect surroundings files).2 = .ok session) :
    (run surroundings arguments files).2 =
        reported (act session.settings.limit (files.storeAt session.settings.place)) ∧
      (run surroundings arguments files).1.storeAt session.settings.place =
        (files.storeAt session.settings.place).afterWork
          (act session.settings.limit (files.storeAt session.settings.place)) := by
  obtain ⟨loaded, shown⟩ := loaded_of_connect connected
  have performs := performs_perform loaded act
  have performed : run surroundings arguments files = perform surroundings act files := by
    simp only [run, request, Command.run, job]
  -- `performs` speaks of the files only, so what the user is told is read off here.
  have told : (perform surroundings act files).2 =
      reported (act session.settings.limit (files.storeAt session.settings.place)) := by
    unfold perform
    split
    · rename_i failed
      rw [failed] at connected
      cases connected
    · rename_i opened
      rw [opened] at connected
      cases connected
      rw [← shown]
      simp only
      split
      · rename_i worked
        rw [worked, reported]
      · rename_i worked
        rw [worked, reported]
  rw [performed]
  refine ⟨told, ?_⟩
  generalize perform surroundings act files = ended at performs told
  cases performs with
  | fails failed leaves =>
      rw [leaves.here]
      cases worked : act session.settings.limit (files.storeAt session.settings.place) with
      | error setback => rfl
      | ok done =>
          rw [worked] at told
          exact absurd (congrArg Outcome.code told) failed
  | succeeds worked leaves =>
      rw [leaves.here, worked]
      rfl

/-- The store that the settings select is as before, with its tasks and the last number that it gave out.
If there are no settings, then all files are as before. -/
structure Files.KeepsSelected (surroundings : Surroundings) (before after : Files) : Prop where
  selected : ∀ settings, loadSettings surroundings before = .ok settings →
    after.storeAt settings.place = before.storeAt settings.place
  unselected : ∀ failure, loadSettings surroundings before = .error failure → after = before

theorem Files.KeepsSelected.refl (surroundings : Surroundings) (files : Files) :
    files.KeepsSelected surroundings files where
  selected _ _ := rfl
  unselected _ _ := rfl

/-- The command looks at the store, or does not need it. -/
def Command.IsReadOnly : Command → Prop
  | .list _ _ _ | .view _ _ | .nextDate _ _ _ => True
  | .add _ _ _ _ | .modify _ _ _ _ _ | .complete _ | .delete _ => False

theorem Command.Effect.eq_none {today : Date} {store : Store} {command : Command}
    {written : Option Store} (effect : command.Effect today store written)
    (readOnly : command.IsReadOnly) : written = none := by
  cases effect with
  | list => rfl
  | view => rfl
  | add | modify | move | finish | delete => exact readOnly.elim

theorem keepsSelected_perform {command : Command}
    (job : command.job surroundings.today = .ok (.work act))
    (harmless : (perform surroundings act files).2.code ≠ 0 ∨ command.IsReadOnly) :
    files.KeepsSelected surroundings (perform surroundings act files).1 where
  selected settings loaded := by
    have performs := performs_perform loaded act
    generalize perform surroundings act files = ended at performs harmless
    cases performs with
    | fails _ leaves => exact leaves.here
    | succeeds carriedOut leaves =>
        rcases harmless with failed | readOnly
        · exact absurd rfl failed
        · rw [(Command.effect_of_work job carriedOut).eq_none readOnly] at leaves
          exact leaves.here
  unselected failure failed := by
    unfold perform
    rw [connect_of_not_loaded failed]

/-- A command that ends with an exit code other than 0, for whatever reason, leaves the selected store as it
was, and so do the commands that only read. -/
theorem keepsSelected_run {arguments : List String}
    (harmless : (run surroundings arguments files).2.code ≠ 0 ∨
      ∃ command, Request.ofArguments? arguments = some (.command command) ∧ command.IsReadOnly) :
    files.KeepsSelected surroundings (run surroundings arguments files).1 := by
  unfold run at *
  split
  · exact .refl surroundings files
  · exact .refl surroundings files
  · rename_i command request
    simp only [request, Option.some.injEq, Request.command.injEq, exists_eq_left'] at harmless
    unfold Command.run at *
    split
    · exact .refl surroundings files
    · exact .refl surroundings files
    · rename_i act job
      rw [job] at harmless
      exact keepsSelected_perform job harmless

/-- A stored task has a rule that cannot be read. Its title and its rule are to be changed, and only the
new rule is refused, after the title. -/
theorem keepsSelected_run_unsatisfiable :
    ∃ surroundings files, ∃ store : Store,
      store.tasks = [{ id := some 1, date := "20990101", title := "Broken", rule := "w 9" }] ∧
      files.storeAt ["home", ".tasksched", "scheduler.db"] = store ∧
      (run surroundings ["modify", "1", "--title", "Other", "--repeat", "m 31 2"] files).2.code = 1 ∧
      (run surroundings ["modify", "1", "--title", "Other", "--repeat", "m 31 2"] files).1.storeAt
        ["home", ".tasksched", "scheduler.db"] = store := by
  let surroundings : Surroundings := ⟨Date.firstOf 2024 1 (by decide) (by decide), "/home", none⟩
  let store := Store.empty.append { date := "20990101", title := "Broken", rule := "w 9" }
  let files := Files.bare.put ["home", ".tasksched", "scheduler.db"] (.store store none)
  have failed : (run surroundings ["modify", "1", "--title", "Other", "--repeat", "m 31 2"]
      files).2.code = 1 := by decide +kernel
  have kept := keepsSelected_run (.inl (failed ▸ Nat.one_ne_zero))
  have loaded : loadSettings surroundings files = .ok ⟨"/home/.tasksched/scheduler.db", 50⟩ := by
    decide +kernel
  have place : Settings.place ⟨"/home/.tasksched/scheduler.db", 50⟩ =
      ["home", ".tasksched", "scheduler.db"] := by decide
  have same := kept.selected _ loaded
  rw [place] at same
  exact ⟨surroundings, files, store, rfl, rfl, failed, same⟩

end Agenda
