import Mathlib.Data.List.Forall2

namespace Agenda

variable {ε ε' α β : Type}

theorem ok_bind (value : α) (next : α → Except ε β) : (Except.ok value >>= next) = next value := rfl

theorem bind_eq_ok_iff {first : Except ε α} {next : α → Except ε β} {result : β} :
    first >>= next = .ok result ↔ ∃ value, first = .ok value ∧ next value = .ok result := by
  cases first with
  | error reason =>
      refine ⟨fun impossible => ?_, fun ⟨_, impossible, _⟩ => ?_⟩ <;> cases impossible
  | ok value =>
      refine ⟨fun succeeded => ⟨value, rfl, succeeded⟩, fun succeeded => ?_⟩
      obtain ⟨other, same, following⟩ := succeeded
      cases same
      exact following

theorem bind_eq_error_iff {first : Except ε α} {next : α → Except ε β} {reason : ε} :
    first >>= next = .error reason ↔
      first = .error reason ∨ ∃ value, first = .ok value ∧ next value = .error reason := by
  cases first with
  | error other =>
      change Except.error other = .error reason ↔ _
      simp
  | ok value =>
      change next value = .error reason ↔ _
      simp

theorem map_eq_ok_iff {first : Except ε α} {change : α → β} {result : β} :
    first.map change = .ok result ↔ ∃ value, first = .ok value ∧ change value = result := by
  cases first <;> simp [Except.map]

theorem map_eq_error_iff {first : Except ε α} {change : α → β} {reason : ε} :
    first.map change = .error reason ↔ first = .error reason := by
  cases first <;> simp [Except.map]

theorem mapError_eq_ok_iff {first : Except ε α} {change : ε → ε'} {result : α} :
    first.mapError change = .ok result ↔ first = .ok result := by
  cases first <;> simp [Except.mapError]

/-- There is no result, for whatever reason. -/
def Fails (result : Except ε α) : Prop := ∃ reason, result = .error reason

@[simp] theorem not_fails_ok (value : α) : ¬ Fails (.ok value : Except ε α) := by
  rintro ⟨reason, impossible⟩
  cases impossible

@[simp] theorem fails_error (reason : ε) : Fails (.error reason : Except ε α) := ⟨reason, rfl⟩

theorem not_fails_iff {result : Except ε α} : ¬ Fails result ↔ ∃ value, result = .ok value := by
  cases result <;> simp

theorem fails_bind_iff {first : Except ε α} {next : α → Except ε β} :
    Fails (first >>= next) ↔ Fails first ∨ ∃ value, first = .ok value ∧ Fails (next value) := by
  cases first with
  | error reason => exact iff_of_true (fails_error reason) (.inl (fails_error reason))
  | ok value => simp [bind, Except.bind]

@[simp] theorem fails_map_iff {first : Except ε α} {change : α → β} :
    Fails (first.map change) ↔ Fails first := by
  cases first <;> simp [Except.map]

@[simp] theorem fails_mapError_iff {first : Except ε α} {change : ε → ε'} :
    Fails (first.mapError change) ↔ Fails first := by
  cases first <;> simp [Except.mapError]

theorem mapM_eq_ok_iff {read : α → Except ε β} {items : List α} {values : List β} :
    items.mapM read = .ok values ↔
      List.Forall₂ (fun item value => read item = .ok value) items values := by
  induction items generalizing values with
  | nil =>
      rw [List.mapM_nil, List.forall₂_nil_left_iff]
      exact ⟨fun same => (Except.ok.inj same).symm, fun same => congrArg _ same.symm⟩
  | cons item rest ih =>
      rw [List.mapM_cons, bind_eq_ok_iff, List.forall₂_cons_left_iff]
      refine ⟨fun succeeded => ?_, fun succeeded => ?_⟩
      · obtain ⟨value, first, more⟩ := succeeded
        obtain ⟨others, following, same⟩ := bind_eq_ok_iff.mp more
        exact ⟨value, others, first, ih.mp following, (Except.ok.inj same).symm⟩
      · obtain ⟨value, others, first, following, rfl⟩ := succeeded
        exact ⟨value, first, bind_eq_ok_iff.mpr ⟨others, ih.mpr following, rfl⟩⟩

theorem forall₂_append_left_iff {relates : α → β → Prop} {first second : List α} {values : List β} :
    List.Forall₂ relates (first ++ second) values ↔
      ∃ front back, values = front ++ back ∧ List.Forall₂ relates first front ∧
        List.Forall₂ relates second back := by
  constructor
  · intro related
    have taken := List.forall₂_take first.length related
    have left := List.forall₂_drop first.length related
    rw [List.take_left] at taken
    rw [List.drop_left] at left
    exact ⟨_, _, (List.take_append_drop first.length values).symm, taken, left⟩
  · rintro ⟨front, back, rfl, related, relatedElse⟩
    exact List.rel_append related relatedElse

/-- A row of steps fails as the first of them that fails. -/
theorem mapM_eq_error_iff {read : α → Except ε β} {items : List α} {reason : ε} :
    items.mapM read = .error reason ↔ ∃ before item after, items = before ++ item :: after ∧
      (∀ earlier ∈ before, ∃ value, read earlier = .ok value) ∧ read item = .error reason := by
  induction items with
  | nil =>
      rw [List.mapM_nil]
      simp [pure, Except.pure]
  | cons first rest ih =>
      rw [List.mapM_cons, bind_eq_error_iff]
      constructor
      · rintro (failed | ⟨value, readFirst, later⟩)
        · exact ⟨[], first, rest, rfl, by simp, failed⟩
        · rcases bind_eq_error_iff.mp later with failed | ⟨values, -, impossible⟩
          · obtain ⟨before, item, after, rfl, succeeds, failed⟩ := ih.mp failed
            exact ⟨first :: before, item, after, rfl,
              List.forall_mem_cons.mpr ⟨⟨value, readFirst⟩, succeeds⟩, failed⟩
          · cases impossible
      · rintro ⟨before, item, after, same, succeeds, failed⟩
        cases before with
        | nil =>
            obtain ⟨rfl, rfl⟩ := List.cons.inj same
            exact .inl failed
        | cons earlier before =>
            obtain ⟨rfl, rfl⟩ := List.cons.inj same
            obtain ⟨⟨value, readFirst⟩, succeeds⟩ := List.forall_mem_cons.mp succeeds
            refine .inr ⟨value, readFirst, bind_eq_error_iff.mpr (.inl ?_)⟩
            exact ih.mpr ⟨before, item, after, rfl, succeeds, failed⟩

end Agenda
