import Mathlib.Data.List.Forall2

set_option autoImplicit false

/-!
Computations that may be refused: when a sequence of them succeeds, and which refusal it ends in.
-/

namespace PartnerSearch.Outcome

variable {ε α β : Type}

@[simp] theorem bind_eq_ok {first : Except ε α} {next : α → Except ε β} {result : β} :
    first >>= next = .ok result ↔ ∃ value, first = .ok value ∧ next value = .ok result := by
  cases first with
  | error reason => simp [bind, Except.bind]
  | ok value => simp [bind, Except.bind]

@[simp] theorem bind_eq_error {first : Except ε α} {next : α → Except ε β} {reason : ε} :
    first >>= next = .error reason ↔
      first = .error reason ∨ ∃ value, first = .ok value ∧ next value = .error reason := by
  cases first with
  | error reason => simp [bind, Except.bind]
  | ok value => simp [bind, Except.bind]

@[simp] theorem pure_eq_ok {value result : α} :
    (pure value : Except ε α) = .ok result ↔ value = result := by
  simp [pure, Except.pure]

@[simp] theorem map_eq_ok {first : Except ε α} {next : α → β} {result : β} :
    first.map next = .ok result ↔ ∃ value, first = .ok value ∧ next value = result := by
  cases first with
  | error reason => simp [Except.map]
  | ok value => simp [Except.map]

@[simp] theorem map_eq_error {first : Except ε α} {next : α → β} {reason : ε} :
    first.map next = .error reason ↔ first = .error reason := by
  cases first with
  | error reason => simp [Except.map]
  | ok value => simp [Except.map]

theorem exists_map_eq_ok {first : Except ε α} {next : α → β} :
    (∃ result, first.map next = .ok result) ↔ ∃ value, first = .ok value := by
  simp [map_eq_ok]

theorem mapError_eq_ok {φ : Type} {first : Except ε α} {fault : ε → φ} {result : α} :
    first.mapError fault = .ok result ↔ first = .ok result := by
  cases first with
  | error reason => simp [Except.mapError]
  | ok value => simp [Except.mapError]

theorem mapError_eq_error {φ : Type} {first : Except ε α} {fault : ε → φ} {reason : φ} :
    first.mapError fault = .error reason ↔ ∃ cause, first = .error cause ∧ fault cause = reason := by
  cases first with
  | error reason => simp [Except.mapError]
  | ok value => simp [Except.mapError]

/-- A refusal in front is not taken by what succeeds. -/
theorem refuse_eq_ok {test : Prop} [Decidable test] {reason : ε} {next : Except ε α} {result : α} :
    (if test then .error reason else next) = .ok result ↔ ¬test ∧ next = .ok result := by
  by_cases refused : test
  · simp [refused]
  · simp [refused]

/-- Two computations that start alike are the same if they go on alike from where that leads. -/
theorem bind_congr {first : Except ε α} {next other : α → Except ε β}
    (agree : ∀ value, first = .ok value → next value = other value) :
    first >>= next = first >>= other := by
  cases first with
  | error reason => rfl
  | ok value => exact agree value rfl

theorem mapM_congr {next other : α → Except ε β} {items : List α}
    (agree : ∀ item ∈ items, next item = other item) : items.mapM next = items.mapM other := by
  induction items with
  | nil => rfl
  | cons item rest ih =>
      obtain ⟨first, later⟩ := List.forall_mem_cons.mp agree
      rw [List.mapM_cons, List.mapM_cons, first, ih later]

/-- A sequence over a list succeeds when every step does, with the results in order. -/
theorem mapM_eq_ok {next : α → Except ε β} {items : List α} {results : List β} :
    items.mapM next = .ok results ↔
      List.Forall₂ (fun item result => next item = .ok result) items results := by
  induction items generalizing results with
  | nil =>
      rw [List.mapM_nil, pure_eq_ok, List.forall₂_nil_left_iff]
      exact eq_comm
  | cons item rest ih =>
      rw [List.mapM_cons, List.forall₂_cons_left_iff]
      simp only [bind_eq_ok, pure_eq_ok, ih]
      constructor
      · intro steps
        obtain ⟨result, first, others, later, rfl⟩ := steps
        exact ⟨result, others, first, later, rfl⟩
      · intro steps
        obtain ⟨result, others, first, later, rfl⟩ := steps
        exact ⟨result, first, others, later, rfl⟩

theorem exists_mapM_eq_ok {next : α → Except ε β} {items : List α} :
    (∃ results, items.mapM next = .ok results) ↔
      ∀ item ∈ items, ∃ result, next item = .ok result := by
  induction items with
  | nil => simp
  | cons item rest ih =>
      rw [List.forall_mem_cons, ← ih]
      simp only [List.mapM_cons, bind_eq_ok, pure_eq_ok]
      constructor
      · intro steps
        obtain ⟨_, result, first, others, later, -⟩ := steps
        exact ⟨⟨result, first⟩, others, later⟩
      · intro steps
        obtain ⟨⟨result, first⟩, others, later⟩ := steps
        exact ⟨_, result, first, others, later, rfl⟩

/-- A sequence over a list is refused for the first step that is, all those before it succeed. -/
theorem mapM_eq_error {next : α → Except ε β} {items : List α} {reason : ε} :
    items.mapM next = .error reason ↔
      ∃ before item after, items = before ++ item :: after ∧
        (∀ other ∈ before, ∃ result, next other = .ok result) ∧ next item = .error reason := by
  induction items with
  | nil => simp [pure, Except.pure]
  | cons item rest ih =>
      simp only [List.mapM_cons, bind_eq_error, ih]
      constructor
      · rintro (failed | ⟨result, here, later | ⟨_, _, ⟨⟩⟩⟩)
        · exact ⟨[], item, rest, rfl, by simp, failed⟩
        · obtain ⟨before, fault, after, rfl, earlier, failed⟩ := later
          exact ⟨item :: before, fault, after, rfl,
            List.forall_mem_cons.mpr ⟨⟨result, here⟩, earlier⟩, failed⟩
      · intro cut
        obtain ⟨before, fault, after, same, earlier, failed⟩ := cut
        cases before with
        | nil =>
            cases same
            exact .inl failed
        | cons first before =>
            cases same
            obtain ⟨⟨result, here⟩, earlier⟩ := List.forall_mem_cons.mp earlier
            exact .inr ⟨result, here, .inl ⟨before, fault, after, rfl, earlier, failed⟩⟩

section Verdicts

variable {γ δ : Type}

/-- Whether a computation is refused, and why. -/
def verdict (result : Except ε α) : Except ε Unit := result.map fun _ => ()

theorem verdict_eq_error {result : Except ε α} {reason : ε} :
    verdict result = .error reason ↔ result = .error reason := map_eq_error

theorem verdict_eq_ok {result : Except ε α} :
    verdict result = .ok () ↔ ∃ value, result = .ok value := by
  simp [verdict]

theorem verdict_map (result : Except ε α) (next : α → β) :
    verdict (result.map next) = verdict result := by
  cases result <;> rfl

/-- Two computations in a row are judged alike if each of their steps is. -/
theorem verdict_bind_congr {first : Except ε α} {start : Except ε γ} {next : α → Except ε β}
    {onward : γ → Except ε δ} (same : verdict first = verdict start)
    (later : ∀ value other, verdict (next value) = verdict (onward other)) :
    verdict (first >>= next) = verdict (start >>= onward) := by
  cases first with
  | error reason =>
      cases start with
      | error other =>
          cases same
          rfl
      | ok other => cases same
  | ok value =>
      cases start with
      | error other => cases same
      | ok other => exact later value other

theorem verdict_mapM_cons (next : α → Except ε β) (item : α) (rest : List α) :
    verdict ((item :: rest).mapM next) = verdict (next item >>= fun _ => rest.mapM next) := by
  rw [List.mapM_cons]
  refine verdict_bind_congr rfl fun _ _ => ?_
  exact verdict_map (rest.mapM next) _

theorem verdict_mapM_singleton (next : α → Except ε β) (item : α) :
    verdict ([item].mapM next) = verdict (next item) :=
  (verdict_mapM_cons next item []).trans (verdict_map (next item) _)

theorem verdict_mapM_append (next : α → Except ε β) (items others : List α) :
    verdict ((items ++ others).mapM next) =
      verdict (items.mapM next >>= fun _ => others.mapM next) := by
  rw [List.mapM_append]
  refine verdict_bind_congr rfl fun _ _ => ?_
  exact verdict_map (others.mapM next) _

end Verdicts

/-- A list of things is accepted as it is, or refused for the first one that fails a test. -/
theorem mapM_guard (test : α → Prop) [DecidablePred test] (fault : ε) (items : List α) :
    items.mapM (fun item => if test item then .ok item else .error fault) =
      if ∀ item ∈ items, test item then .ok items else (.error fault : Except ε (List α)) := by
  induction items with
  | nil =>
      rw [if_pos fun item member => absurd member List.not_mem_nil]
      rfl
  | cons item items ih =>
      rw [List.mapM_cons, ih]
      by_cases first : test item
      · rw [if_pos first]
        by_cases later : ∀ other ∈ items, test other
        · have both : ∀ other ∈ item :: items, test other := List.forall_mem_cons.mpr ⟨first, later⟩
          rw [if_pos later, if_pos both]
          rfl
        · have notBoth : ¬ ∀ other ∈ item :: items, test other :=
            fun both => later (List.forall_mem_cons.mp both).2
          rw [if_neg later, if_neg notBoth]
          rfl
      · have notBoth : ¬ ∀ other ∈ item :: items, test other :=
          fun both => first (List.forall_mem_cons.mp both).1
        rw [if_neg first, if_neg notBoth]
        rfl

/-- What is not refused succeeds. -/
theorem exists_ok {result : Except ε α} (accepted : ∀ reason, result ≠ .error reason) :
    ∃ value, result = .ok value := by
  cases result with
  | error reason => exact absurd rfl (accepted reason)
  | ok value => exact ⟨value, rfl⟩

end PartnerSearch.Outcome
