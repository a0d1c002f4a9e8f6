import ClrImage.Image
import Mathlib.Data.List.Forall2
import Mathlib.Order.Defs.Unbundled

/-!
# Runs of build steps

A step of a build takes a state to an outcome and a new state. This module takes such runs apart, so
that no later proof opens the monad.

- `Build.outcome`: the run of a step, with one equation for each way of putting steps together.
- `Build.Yields`, `Build.Fails`: the two kinds of outcome, with their inversions (`yields_bind`,
  `fails_bind`, `yields_forM_cons`, …).
- `Build.forM_induction`, `Build.mapM_induction`: what each element of a pass preserves holds of the
  whole pass.
- `Build.forM_yields`, `Build.mapM_yields`: a pass succeeds if each of its elements does, and
  `Build.exists_of_fails_forM`: if it fails, it does so at an element.
- `Build.Succeeds`: steps that cannot fail.
- `Build.Keeps`: what holds between the states before and after a step **whatever its outcome**. For
  a preorder it is put together from the parts of the step (`Keeps.bind`, `Keeps.forM`, …).
- `Build.outcome_bind_induction`, `Build.outcome_mapM_induction`, `Build.outcome_forM_induction`:
  the same for a property of the final state that depends on how the run got there.
-/

namespace ClrImage

namespace Build

variable {α β : Type}

/-! ## Outcomes -/

/-- The outcome of a step in a state, and the state that the step leaves. -/
def outcome (step : Build α) (s : BuildState) : Except Failure α × BuildState := step.run.run s

/-- The step succeeds with a value. -/
def Yields (step : Build α) (s : BuildState) (a : α) (s' : BuildState) : Prop :=
  step.outcome s = (.ok a, s')

/-- The step fails. -/
def Fails (step : Build α) (s : BuildState) (e : Failure) (s' : BuildState) : Prop :=
  step.outcome s = (.error e, s')

@[simp] theorem outcome_pure (a : α) (s : BuildState) :
    (pure a : Build α).outcome s = (.ok a, s) := rfl

@[simp] theorem outcome_throw (e : Failure) (s : BuildState) :
    (throw e : Build α).outcome s = (.error e, s) := rfl

@[simp] theorem outcome_get (s : BuildState) :
    (get : Build BuildState).outcome s = (.ok s, s) := rfl

@[simp] theorem outcome_modify (f : BuildState → BuildState) (s : BuildState) :
    (modify f : Build Unit).outcome s = (.ok (), f s) := rfl

@[simp] theorem outcome_modifyGet (f : BuildState → α × BuildState) (s : BuildState) :
    (modifyGet f : Build α).outcome s = (.ok (f s).1, (f s).2) := rfl

@[simp] theorem outcome_liftExcept (x : Except Failure α) (s : BuildState) :
    (liftExcept x : Build α).outcome s = (x, s) := by
  cases x <;> rfl

/-- A failure ends a sequence of steps; otherwise the next step goes on in the state left. -/
theorem outcome_bind (step : Build α) (next : α → Build β) (s : BuildState) :
    (step >>= next).outcome s =
      match step.outcome s with
      | (.ok a, s') => (next a).outcome s'
      | (.error e, s') => (.error e, s') := by
  unfold outcome ExceptT.run StateT.run
  simp only [bind, ExceptT.bind, ExceptT.mk, StateT.bind, ExceptT.bindCont]
  rcases step s with ⟨_ | _, s'⟩ <;> rfl

/-- A handler goes on in the state that the failing step has left. -/
theorem outcome_tryCatch (step : Build α) (handle : Failure → Build α) (s : BuildState) :
    (tryCatch step handle).outcome s =
      match step.outcome s with
      | (.ok a, s') => (.ok a, s')
      | (.error e, s') => (handle e).outcome s' := by
  unfold outcome ExceptT.run StateT.run
  simp only [tryCatch, tryCatchThe, MonadExceptOf.tryCatch, ExceptT.tryCatch, ExceptT.mk, bind,
    StateT.bind]
  rcases step s with ⟨_ | _, s'⟩ <;> rfl

/-! ## Inversion of sequences -/

theorem yields_bind {step : Build α} {next : α → Build β} {s s' : BuildState} {b : β} :
    (step >>= next).Yields s b s' ↔
      ∃ a s₁, step.Yields s a s₁ ∧ (next a).Yields s₁ b s' := by
  unfold Yields
  rw [outcome_bind]
  rcases step.outcome s with ⟨_ | a, s₁⟩ <;> simp

theorem fails_bind {step : Build α} {next : α → Build β} {s s' : BuildState} {e : Failure} :
    (step >>= next).Fails s e s' ↔
      step.Fails s e s' ∨ ∃ a s₁, step.Yields s a s₁ ∧ (next a).Fails s₁ e s' := by
  unfold Yields Fails
  rw [outcome_bind]
  rcases step.outcome s with ⟨_ | a, s₁⟩ <;> simp

@[simp] theorem yields_pure {a b : α} {s s' : BuildState} :
    (pure a : Build α).Yields s b s' ↔ a = b ∧ s = s' := by simp [Yields]

@[simp] theorem yields_throw {e : Failure} {a : α} {s s' : BuildState} :
    (throw e : Build α).Yields s a s' ↔ False := by simp [Yields]

@[simp] theorem yields_get {a s s' : BuildState} :
    (get : Build BuildState).Yields s a s' ↔ s = a ∧ s = s' := by simp [Yields]

@[simp] theorem yields_modify {f : BuildState → BuildState} {u : Unit} {s s' : BuildState} :
    (modify f : Build Unit).Yields s u s' ↔ f s = s' := by simp [Yields]

@[simp] theorem yields_modifyGet {f : BuildState → α × BuildState} {a : α} {s s' : BuildState} :
    (modifyGet f : Build α).Yields s a s' ↔ (f s).1 = a ∧ (f s).2 = s' := by simp [Yields]

@[simp] theorem yields_liftExcept {x : Except Failure α} {a : α} {s s' : BuildState} :
    (liftExcept x : Build α).Yields s a s' ↔ x = .ok a ∧ s = s' := by simp [Yields]

@[simp] theorem fails_pure {a : α} {e : Failure} {s s' : BuildState} :
    (pure a : Build α).Fails s e s' ↔ False := by simp [Fails]

@[simp] theorem fails_throw {e e' : Failure} {s s' : BuildState} :
    (throw e : Build α).Fails s e' s' ↔ e = e' ∧ s = s' := by simp [Fails]

@[simp] theorem fails_get {e : Failure} {s s' : BuildState} :
    (get : Build BuildState).Fails s e s' ↔ False := by simp [Fails]

@[simp] theorem fails_modify {f : BuildState → BuildState} {e : Failure} {s s' : BuildState} :
    (modify f : Build Unit).Fails s e s' ↔ False := by simp [Fails]

@[simp] theorem fails_liftExcept {x : Except Failure α} {e : Failure} {s s' : BuildState} :
    (liftExcept x : Build α).Fails s e s' ↔ x = .error e ∧ s = s' := by simp [Fails]

@[simp] theorem yields_get_bind {next : BuildState → Build β} {b : β} {s s' : BuildState} :
    (get >>= next).Yields s b s' ↔ (next s).Yields s b s' := Iff.rfl

@[simp] theorem yields_modify_bind {f : BuildState → BuildState} {next : Unit → Build β} {b : β}
    {s s' : BuildState} :
    (modify f >>= next).Yields s b s' ↔ (next ()).Yields (f s) b s' := Iff.rfl

@[simp] theorem yields_liftExcept_bind {x : Except Failure α} {next : α → Build β} {b : β}
    {s s' : BuildState} :
    (liftExcept x >>= next).Yields s b s' ↔ ∃ a, x = .ok a ∧ (next a).Yields s b s' := by
  rw [yields_bind]
  simp

/-- Every run either yields or fails. -/
theorem yields_or_fails (step : Build α) (s : BuildState) :
    (∃ a s', step.Yields s a s') ∨ ∃ e s', step.Fails s e s' := by
  unfold Yields Fails
  rcases step.outcome s with ⟨e | a, s'⟩
  · exact .inr ⟨e, s', rfl⟩
  · exact .inl ⟨a, s', rfl⟩

/-- No run does both. -/
theorem Yields.not_fails {step : Build α} {s s₁ s₂ : BuildState} {a : α} {e : Failure}
    (h : step.Yields s a s₁) : ¬ step.Fails s e s₂ := by
  unfold Yields at h
  unfold Fails
  rw [h]
  simp

/-- A run has one result. -/
theorem Yields.unique {step : Build α} {s s₁ s₂ : BuildState} {a b : α}
    (h₁ : step.Yields s a s₁) (h₂ : step.Yields s b s₂) : a = b ∧ s₁ = s₂ := by
  unfold Yields at h₁ h₂
  rw [h₁] at h₂
  simpa using h₂

theorem Yields.outcome_snd {step : Build α} {s s' : BuildState} {a : α}
    (h : step.Yields s a s') : (step.outcome s).2 = s' := by
  rw [show step.outcome s = _ from h]

theorem Fails.outcome_snd {step : Build α} {s s' : BuildState} {e : Failure}
    (h : step.Fails s e s') : (step.outcome s).2 = s' := by
  rw [show step.outcome s = _ from h]

/-- Whether a step succeeds shows in its outcome. -/
theorem yields_of_isOk (step : Build Unit) (s : BuildState)
    (h : (step.outcome s).1.isOk = true) : step.Yields s () (step.outcome s).2 := by
  unfold Yields
  rcases hrun : step.outcome s with ⟨_ | _, s'⟩
  · rw [hrun] at h
    cases h
  · rfl

theorem fails_of_not_isOk (step : Build Unit) (s : BuildState)
    (h : (step.outcome s).1.isOk = false) : ∃ e, step.Fails s e (step.outcome s).2 := by
  unfold Fails
  rcases hrun : step.outcome s with ⟨e | _, s'⟩
  · exact ⟨e, rfl⟩
  · rw [hrun] at h
    cases h

theorem outcome_bind_of_yields {step : Build α} {next : α → Build β} {s s₁ : BuildState} {a : α}
    (h : step.Yields s a s₁) : (step >>= next).outcome s = (next a).outcome s₁ := by
  rw [outcome_bind, show step.outcome s = _ from h]

theorem outcome_bind_of_fails {step : Build α} {next : α → Build β} {s s₁ : BuildState}
    {e : Failure} (h : step.Fails s e s₁) : (step >>= next).outcome s = (.error e, s₁) := by
  rw [outcome_bind, show step.outcome s = _ from h]

/-- What the first step of a sequence establishes, whatever its outcome, and the others preserve,
holds of the state that the sequence leaves. -/
theorem outcome_bind_induction {step : Build α} {next : α → Build β} {s : BuildState}
    (I : BuildState → Prop) (first : I (step.outcome s).2)
    (others : ∀ a s₁, step.Yields s a s₁ → I s₁ → I ((next a).outcome s₁).2) :
    I ((step >>= next).outcome s).2 := by
  rcases hrun : step.outcome s with ⟨e | a, s₁⟩ <;> rw [hrun] at first
  · rw [outcome_bind_of_fails hrun]
    exact first
  · rw [outcome_bind_of_yields hrun]
    exact others a s₁ hrun first

/-- What a step establishes, whatever its outcome, and the handler of its failures preserves. -/
theorem outcome_tryCatch_induction {step : Build α} {handle : Failure → Build α} {s : BuildState}
    (I : BuildState → Prop) (first : I (step.outcome s).2)
    (handler : ∀ e s₁, step.Fails s e s₁ → I s₁ → I ((handle e).outcome s₁).2) :
    I ((tryCatch step handle).outcome s).2 := by
  rw [outcome_tryCatch]
  rcases hrun : step.outcome s with ⟨e | a, s₁⟩ <;> rw [hrun] at first
  · exact handler e s₁ hrun first
  · exact first

/-- What is done with the result of a step does not show in the state. -/
theorem outcome_bind_pure_snd (step : Build α) (f : α → β) (s : BuildState) :
    ((step >>= fun a => pure (f a)).outcome s).2 = (step.outcome s).2 := by
  rw [outcome_bind]
  rcases step.outcome s with ⟨_ | a, s₁⟩ <;> rfl

/-! ## Inversion of passes -/

theorem forM_cons_eq (f : α → Build Unit) (a : α) (l : List α) :
    List.forM (a :: l) f = f a >>= fun _ => List.forM l f := rfl

theorem yields_forM_nil {f : α → Build Unit} {s s' : BuildState} :
    Yields (List.forM [] f) s () s' ↔ s = s' := by
  show (pure () : Build Unit).Yields s () s' ↔ s = s'
  simp

theorem yields_forM_cons {f : α → Build Unit} {a : α} {l : List α} {s s' : BuildState} :
    Yields (List.forM (a :: l) f) s () s' ↔
      ∃ s₁, (f a).Yields s () s₁ ∧ Yields (List.forM l f) s₁ () s' := by
  rw [forM_cons_eq, yields_bind]
  exact ⟨fun ⟨_, s₁, h⟩ => ⟨s₁, h⟩, fun ⟨s₁, h⟩ => ⟨(), s₁, h⟩⟩

theorem fails_forM_cons {f : α → Build Unit} {a : α} {l : List α} {e : Failure}
    {s s' : BuildState} :
    Fails (List.forM (a :: l) f) s e s' ↔
      (f a).Fails s e s' ∨ ∃ s₁, (f a).Yields s () s₁ ∧ Fails (List.forM l f) s₁ e s' := by
  rw [forM_cons_eq, fails_bind]
  exact or_congr_right ⟨fun ⟨_, s₁, h⟩ => ⟨s₁, h⟩, fun ⟨s₁, h⟩ => ⟨(), s₁, h⟩⟩

theorem yields_forM_append {f : α → Build Unit} {l₁ l₂ : List α} {s s' : BuildState} :
    Yields (List.forM (l₁ ++ l₂) f) s () s' ↔
      ∃ s₁, Yields (List.forM l₁ f) s () s₁ ∧ Yields (List.forM l₂ f) s₁ () s' := by
  induction l₁ generalizing s with
  | nil =>
    rw [List.nil_append]
    exact ⟨fun h => ⟨s, yields_forM_nil.mpr rfl, h⟩,
      fun ⟨s₁, h₁, h₂⟩ => yields_forM_nil.mp h₁ ▸ h₂⟩
  | cons a l₁ ih =>
    simp only [List.cons_append, yields_forM_cons, ih]
    exact ⟨fun ⟨s₁, h₁, s₂, h₂, h₃⟩ => ⟨s₂, ⟨s₁, h₁, h₂⟩, h₃⟩,
      fun ⟨s₂, ⟨s₁, h₁, h₂⟩, h₃⟩ => ⟨s₁, h₁, s₂, h₂, h₃⟩⟩

theorem yields_mapM_nil {f : α → Build β} {bs : List β} {s s' : BuildState} :
    Yields (List.mapM f []) s bs s' ↔ [] = bs ∧ s = s' := by
  rw [List.mapM_nil]
  simp

theorem yields_mapM_cons {f : α → Build β} {a : α} {l : List α} {bs : List β}
    {s s' : BuildState} :
    Yields (List.mapM f (a :: l)) s bs s' ↔
      ∃ b s₁ rest, (f a).Yields s b s₁ ∧ Yields (List.mapM f l) s₁ rest s' ∧
        b :: rest = bs := by
  rw [List.mapM_cons]
  simp only [yields_bind, yields_pure]
  constructor
  · rintro ⟨b, s₁, h₁, rest, s₂, h₂, rfl, rfl⟩
    exact ⟨b, s₁, rest, h₁, h₂, rfl⟩
  · rintro ⟨b, s₁, rest, h₁, h₂, rfl⟩
    exact ⟨b, s₁, h₁, rest, s', h₂, rfl, rfl⟩

theorem yields_mapM_append {f : α → Build β} {l₁ l₂ : List α} {bs : List β} {s s' : BuildState} :
    Yields (List.mapM f (l₁ ++ l₂)) s bs s' ↔
      ∃ b₁ s₁ b₂, Yields (List.mapM f l₁) s b₁ s₁ ∧ Yields (List.mapM f l₂) s₁ b₂ s' ∧
        b₁ ++ b₂ = bs := by
  rw [List.mapM_append]
  simp only [yields_bind, yields_pure]
  constructor
  · rintro ⟨b₁, s₁, h₁, b₂, s₂, h₂, rfl, rfl⟩
    exact ⟨b₁, s₁, b₂, h₁, h₂, rfl⟩
  · rintro ⟨b₁, s₁, b₂, h₁, h₂, rfl⟩
    exact ⟨b₁, s₁, h₁, b₂, s', h₂, rfl, rfl⟩

theorem yields_foldlM_cons {f : β → α → Build β} {a : α} {l : List α} {b c : β}
    {s s' : BuildState} :
    Yields (List.foldlM f b (a :: l)) s c s' ↔
      ∃ b₁ s₁, (f b a).Yields s b₁ s₁ ∧ Yields (List.foldlM f b₁ l) s₁ c s' := by
  rw [List.foldlM_cons, yields_bind]

/-- What holds at the start of a pass and is preserved by each of its elements holds at the end. The
invariant speaks of the elements that are done and of those that are still to do. -/
theorem forM_induction {f : α → Build Unit} {l : List α} {s s' : BuildState}
    (I : List α → List α → BuildState → Prop) (start : I [] l s)
    (step : ∀ done a todo s s', l = done ++ a :: todo → I done (a :: todo) s →
      (f a).Yields s () s' → I (done ++ [a]) todo s')
    (h : Yields (List.forM l f) s () s') : I l [] s' := by
  -- the induction is on what is still to do, wherever the pass has got to
  suffices ∀ done todo s, l = done ++ todo → I done todo s → Yields (List.forM todo f) s () s' →
      I l [] s' from this [] l s rfl start h
  intro done todo
  induction todo generalizing done with
  | nil =>
    intro s hl hI h
    obtain rfl := yields_forM_nil.mp h
    rw [hl, List.append_nil]
    exact hI
  | cons a todo ih =>
    intro s hl hI h
    obtain ⟨s₁, h₁, h₂⟩ := yields_forM_cons.mp h
    exact ih (done ++ [a]) s₁ (by simp [hl]) (step done a todo s s₁ hl hI h₁) h₂

/-- `forM_induction` for a pass with results; the invariant also speaks of the results so far. -/
theorem mapM_induction {f : α → Build β} {l : List α} {bs : List β} {s s' : BuildState}
    (I : List α → List α → List β → BuildState → Prop) (start : I [] l [] s)
    (step : ∀ done a todo results b s s', l = done ++ a :: todo → I done (a :: todo) results s →
      (f a).Yields s b s' → I (done ++ [a]) todo (results ++ [b]) s')
    (h : Yields (List.mapM f l) s bs s') : I l [] bs s' := by
  suffices ∀ done todo results rest s, l = done ++ todo → I done todo results s →
      Yields (List.mapM f todo) s rest s' → I l [] (results ++ rest) s' from
    this [] l [] bs s rfl start h
  intro done todo
  induction todo generalizing done with
  | nil =>
    intro results rest s hl hI h
    obtain ⟨rfl, rfl⟩ := yields_mapM_nil.mp h
    rw [hl, List.append_nil, List.append_nil]
    exact hI
  | cons a todo ih =>
    intro results rest s hl hI h
    obtain ⟨b, s₁, rest', h₁, h₂, rfl⟩ := yields_mapM_cons.mp h
    have := ih (done ++ [a]) (results ++ [b]) rest' s₁ (by simp [hl])
      (step done a todo results b s s₁ hl hI h₁) h₂
    simpa using this

/-- A pass succeeds if each of its elements does where the invariant has brought it. -/
theorem forM_yields {f : α → Build Unit} {l : List α} {s : BuildState}
    (I : List α → List α → BuildState → Prop) (start : I [] l s)
    (step : ∀ done a todo s, l = done ++ a :: todo → I done (a :: todo) s →
      ∃ s', (f a).Yields s () s' ∧ I (done ++ [a]) todo s') :
    ∃ s', Yields (List.forM l f) s () s' ∧ I l [] s' := by
  suffices ∀ done todo s, l = done ++ todo → I done todo s →
      ∃ s', Yields (List.forM todo f) s () s' ∧ I l [] s' from this [] l s rfl start
  intro done todo
  induction todo generalizing done with
  | nil =>
    intro s hl hI
    rw [List.append_nil] at hl
    exact ⟨s, yields_forM_nil.mpr rfl, hl ▸ hI⟩
  | cons a todo ih =>
    intro s hl hI
    obtain ⟨s₁, h₁, hI₁⟩ := step done a todo s hl hI
    obtain ⟨s', h', hI'⟩ := ih (done ++ [a]) s₁ (by simp [hl]) hI₁
    exact ⟨s', yields_forM_cons.mpr ⟨s₁, h₁, h'⟩, hI'⟩

/-- `forM_yields` for a pass with results; the invariant also speaks of the results so far. -/
theorem mapM_yields {f : α → Build β} {l : List α} {s : BuildState}
    (I : List α → List α → List β → BuildState → Prop) (start : I [] l [] s)
    (step : ∀ done a todo results s, l = done ++ a :: todo → I done (a :: todo) results s →
      ∃ b s', (f a).Yields s b s' ∧ I (done ++ [a]) todo (results ++ [b]) s') :
    ∃ bs s', Yields (List.mapM f l) s bs s' ∧ I l [] bs s' := by
  suffices ∀ done todo results s, l = done ++ todo → I done todo results s →
      ∃ rest s', Yields (List.mapM f todo) s rest s' ∧ I l [] (results ++ rest) s' from
    this [] l [] s rfl start
  intro done todo
  induction todo generalizing done with
  | nil =>
    intro results s hl hI
    rw [List.append_nil] at hl
    exact ⟨[], s, yields_mapM_nil.mpr ⟨rfl, rfl⟩, by rwa [List.append_nil, hl]⟩
  | cons a todo ih =>
    intro results s hl hI
    obtain ⟨b, s₁, h₁, hI₁⟩ := step done a todo results s hl hI
    obtain ⟨rest, s', h', hI'⟩ := ih (done ++ [a]) (results ++ [b]) s₁ (by simp [hl]) hI₁
    exact ⟨b :: rest, s', yields_mapM_cons.mpr ⟨b, s₁, rest, h₁, h', rfl⟩, by simpa using hI'⟩

/-- A pass that fails does so at one of its elements, where the invariant has brought it. -/
theorem exists_of_fails_forM {f : α → Build Unit} {l : List α} {e : Failure} {s s' : BuildState}
    (I : List α → List α → BuildState → Prop) (start : I [] l s)
    (step : ∀ done a todo s s', l = done ++ a :: todo → I done (a :: todo) s →
      (f a).Yields s () s' → I (done ++ [a]) todo s')
    (h : Fails (List.forM l f) s e s') :
    ∃ done a todo s₁, l = done ++ a :: todo ∧ I done (a :: todo) s₁ ∧ (f a).Fails s₁ e s' := by
  suffices ∀ done todo s, l = done ++ todo → I done todo s → Fails (List.forM todo f) s e s' →
      ∃ done a todo s₁, l = done ++ a :: todo ∧ I done (a :: todo) s₁ ∧ (f a).Fails s₁ e s' from
    this [] l s rfl start h
  intro done todo
  induction todo generalizing done with
  | nil =>
    intro s _ _ h
    cases h
  | cons a todo ih =>
    intro s hl hI h
    rcases fails_forM_cons.mp h with hfirst | ⟨s₁, hfirst, hrest⟩
    · exact ⟨done, a, todo, s, hl, hI, hfirst⟩
    · exact ih (done ++ [a]) s₁ (by simp [hl]) (step done a todo s s₁ hl hI hfirst) hrest

/-- What each element of a pass preserves, whatever its outcome, holds of the state that the pass
leaves. The step may rely on the run of the elements before. -/
theorem outcome_mapM_induction {f : α → Build β} {l : List α} {s : BuildState}
    (I : BuildState → Prop) (start : I s)
    (step : ∀ done a todo results s₁, l = done ++ a :: todo →
      Yields (List.mapM f done) s results s₁ → I s₁ → I ((f a).outcome s₁).2) :
    I (Build.outcome (List.mapM f l) s).2 := by
  suffices ∀ done todo results s₁, l = done ++ todo → Yields (List.mapM f done) s results s₁ →
      I s₁ → I (Build.outcome (List.mapM f todo) s₁).2 from
    this [] l [] s rfl (yields_mapM_nil.mpr ⟨rfl, rfl⟩) start
  intro done todo
  induction todo generalizing done with
  | nil =>
    intro results s₁ _ _ hI
    rw [List.mapM_nil]
    exact hI
  | cons a todo ih =>
    intro results s₁ hl hdone hI
    have hstep := step done a todo results s₁ hl hdone hI
    rw [List.mapM_cons]
    refine outcome_bind_induction I hstep fun b s₂ hyields hI₂ => ?_
    rw [outcome_bind_pure_snd]
    -- the run of the elements before grows by this one
    have hsnoc : Yields (List.mapM f [a]) s₁ [b] s₂ :=
      yields_mapM_cons.mpr ⟨b, s₂, [], hyields, yields_mapM_nil.mpr ⟨rfl, rfl⟩, rfl⟩
    exact ih (done ++ [a]) (results ++ [b]) s₂ (by simp [hl])
      (yields_mapM_append.mpr ⟨results, s₁, [b], hdone, hsnoc, rfl⟩) hI₂

/-- What each element of a pass preserves, whatever its outcome, holds of the state that the pass
leaves. -/
theorem outcome_forM_induction {f : α → Build Unit} {l : List α} {s : BuildState}
    (I : BuildState → Prop) (start : I s)
    (step : ∀ a ∈ l, ∀ s₁, I s₁ → I ((f a).outcome s₁).2) :
    I (Build.outcome (List.forM l f) s).2 := by
  induction l generalizing s with
  | nil => exact start
  | cons a l ih =>
    rw [forM_cons_eq]
    refine outcome_bind_induction I (step a List.mem_cons_self s start) fun _ s₁ _ hI => ?_
    exact ih hI fun b hb => step b (List.mem_cons_of_mem a hb)

/-! ## Steps that cannot fail -/

/-- The step yields in every state. -/
def Succeeds (step : Build α) : Prop := ∀ s, ∃ a s', step.Yields s a s'

namespace Succeeds

theorem pure (a : α) : Succeeds (pure a : Build α) := fun s => ⟨a, s, rfl⟩

theorem get : Succeeds (get : Build BuildState) := fun s => ⟨s, s, rfl⟩

theorem modify (f : BuildState → BuildState) : Succeeds (modify f : Build Unit) :=
  fun s => ⟨(), f s, rfl⟩

theorem modifyGet (f : BuildState → α × BuildState) : Succeeds (modifyGet f : Build α) :=
  fun s => ⟨(f s).1, (f s).2, rfl⟩

theorem bind {step : Build α} {next : α → Build β} (h : Succeeds step)
    (hnext : ∀ a, Succeeds (next a)) : Succeeds (step >>= next) := by
  intro s
  obtain ⟨a, s₁, h₁⟩ := h s
  obtain ⟨b, s₂, h₂⟩ := hnext a s₁
  exact ⟨b, s₂, yields_bind.mpr ⟨a, s₁, h₁, h₂⟩⟩

end Succeeds

/-! ## What a step keeps -/

/-- The states before and after the step are related, whether it yields or fails. -/
def Keeps (R : BuildState → BuildState → Prop) (step : Build α) : Prop :=
  ∀ s, R s (step.outcome s).2

namespace Keeps

variable {R : BuildState → BuildState → Prop} {step : Build α} {s s' : BuildState}

theorem of_yields {a : α} (h : Keeps R step) (hrun : step.Yields s a s') : R s s' :=
  hrun.outcome_snd ▸ h s

theorem of_fails {e : Failure} (h : Keeps R step) (hrun : step.Fails s e s') : R s s' :=
  hrun.outcome_snd ▸ h s

theorem mono {R' : BuildState → BuildState → Prop} (hR : ∀ s s', R s s' → R' s s')
    (h : Keeps R step) : Keeps R' step := fun s => hR _ _ (h s)

theorem modify {f : BuildState → BuildState} (h : ∀ s, R s (f s)) :
    Keeps R (modify f : Build Unit) := h

theorem modifyGet {f : BuildState → α × BuildState} (h : ∀ s, R s (f s).2) :
    Keeps R (modifyGet f : Build α) := h

variable [IsPreorder BuildState R]

theorem pure (a : α) : Keeps R (pure a : Build α) := fun s => refl_of R s

theorem throw (e : Failure) : Keeps R (throw e : Build α) := fun s => refl_of R s

theorem get : Keeps R (get : Build BuildState) := fun s => refl_of R s

theorem liftExcept (x : Except Failure α) : Keeps R (liftExcept x : Build α) := fun s => by
  rw [outcome_liftExcept]
  exact refl_of R s

theorem bind {next : α → Build β} (h : Keeps R step) (hnext : ∀ a, Keeps R (next a)) :
    Keeps R (step >>= next) := by
  intro s
  rw [outcome_bind]
  have hs := h s
  rcases hrun : step.outcome s with ⟨_ | a, s₁⟩ <;> rw [hrun] at hs
  · exact hs
  · exact trans_of R hs (hnext a s₁)

theorem tryCatch {handle : Failure → Build α} (h : Keeps R step)
    (hhandle : ∀ e, Keeps R (handle e)) : Keeps R (tryCatch step handle) := by
  intro s
  rw [outcome_tryCatch]
  have hs := h s
  rcases hrun : step.outcome s with ⟨e | _, s₁⟩ <;> rw [hrun] at hs
  · exact trans_of R hs (hhandle e s₁)
  · exact hs

theorem forM {f : α → Build Unit} (h : ∀ a, Keeps R (f a)) (l : List α) :
    Keeps R (List.forM l f) := by
  induction l with
  | nil => exact Keeps.pure ()
  | cons a l ih => exact Keeps.bind (h a) fun _ => ih

theorem mapM {f : α → Build β} (h : ∀ a, Keeps R (f a)) (l : List α) :
    Keeps R (List.mapM f l) := by
  induction l with
  | nil =>
    rw [List.mapM_nil]
    exact Keeps.pure []
  | cons a l ih =>
    rw [List.mapM_cons]
    exact Keeps.bind (h a) fun b => Keeps.bind ih fun bs => Keeps.pure (b :: bs)

theorem foldlM {f : β → α → Build β} (h : ∀ b a, Keeps R (f b a)) (l : List α) (b : β) :
    Keeps R (List.foldlM f b l) := by
  induction l generalizing b with
  | nil => exact Keeps.pure b
  | cons a l ih =>
    rw [List.foldlM_cons]
    exact Keeps.bind (h b a) ih

end Keeps

/-- The property is not lost on the way. -/
def Preserves (I : BuildState → Prop) (s s' : BuildState) : Prop := I s → I s'

instance (I : BuildState → Prop) : IsPreorder BuildState (Preserves I) where
  refl _ := id
  trans _ _ _ h₁ h₂ := h₂ ∘ h₁

/-- Each result of a pass is as its step promises, in the final state. What the steps promise holds
on under `R`, which they keep, and they may rely on `Q`, which holds on under `R` too. -/
theorem yields_mapM_forall₂ {f : α → Build β} {R : BuildState → BuildState → Prop}
    [IsPreorder BuildState R] {P : α → β → BuildState → Prop} {Q : BuildState → Prop}
    (hkeeps : ∀ a, Keeps R (f a)) (hQ : ∀ s s', R s s' → Q s → Q s')
    (hP : ∀ a b s s', R s s' → Q s → P a b s → P a b s')
    (hstep : ∀ a b s s', Q s → (f a).Yields s b s' → P a b s') {l : List α} {bs : List β}
    {s s' : BuildState} (hs : Q s) (hrun : Yields (List.mapM f l) s bs s') :
    List.Forall₂ (fun a b => P a b s') l bs := by
  induction l generalizing s bs with
  | nil =>
    obtain ⟨rfl, -⟩ := yields_mapM_nil.mp hrun
    exact .nil
  | cons a l ih =>
    obtain ⟨b, s₁, rest, hfirst, hrest, rfl⟩ := yields_mapM_cons.mp hrun
    have hs₁ := hQ s s₁ ((hkeeps a).of_yields hfirst) hs
    -- the first result still has to hold behind all the others
    have hlater := (Keeps.mapM hkeeps l).of_yields hrest
    exact .cons (hP a b s₁ s' hlater hs₁ (hstep a b s s₁ hs hfirst)) (ih hs₁ hrest)

/-! ## Types by token -/

theorem yields_managed {p : TypePlan} {h : TypeHandle} {s s' : BuildState} :
    (managed p).Yields s h s' ↔ s.links.types.get? p.token = some h ∧ s = s' := by
  unfold managed
  rw [yields_get_bind]
  cases s.links.types.get? p.token <;> simp

theorem yields_managedType {p : TypePlan} {entry : TypeHandle × TypeDef} {s s' : BuildState} :
    (managedType p).Yields s entry s' ↔
      s.links.types.get? p.token = some entry.1 ∧ s.store.types.get? entry.1 = some entry.2 ∧
        s = s' := by
  unfold managedType
  simp only [@yields_bind _ _ (managed p), yields_managed, yields_get_bind]
  constructor
  · rintro ⟨h, s₁, ⟨hh, rfl⟩, hrun⟩
    split at hrun
    next t ht =>
      obtain ⟨rfl, rfl⟩ := yields_pure.mp hrun
      exact ⟨hh, ht, rfl⟩
    next => cases yields_throw.mp hrun
  · rintro ⟨hh, ht, rfl⟩
    refine ⟨entry.1, s, ⟨hh, rfl⟩, ?_⟩
    rw [ht]
    exact rfl

/-- Looking a type up changes nothing, also if there is none. -/
theorem outcome_managedType_snd (p : TypePlan) (s : BuildState) :
    ((managedType p).outcome s).2 = s := by
  have hmanaged : Keeps (fun s s' => s' = s) (managed p) := by
    intro s
    unfold managed
    rw [outcome_bind, outcome_get]
    dsimp only
    split <;> rfl
  unfold managedType
  rw [outcome_bind]
  have hs := hmanaged s
  rcases hrun : (managed p).outcome s with ⟨_ | h, s₁⟩ <;> rw [hrun] at hs
  · exact hs
  · dsimp only at hs ⊢
    subst hs
    rw [outcome_bind, outcome_get]
    dsimp only
    split <;> rfl

end Build

/-! ## Steps for a type -/

namespace Setup

variable {α : Type} {setup : Setup} {phase : Phase} {p : TypePlan} {step : Build α}
  {s s' : BuildState}

theorem yields_inContext {a : α} :
    (setup.inContext phase p step).Yields s a s' ↔ step.Yields s a s' := by
  unfold inContext Build.Yields
  rw [Build.outcome_tryCatch]
  rcases step.outcome s with ⟨e | b, s₁⟩
  · simp [Setup.fail, Build.notice, Build.outcome_bind]
  · simp

/-- A failure gets the context of the type, and is told. -/
theorem fails_inContext {e : Failure} :
    (setup.inContext phase p step).Fails s e s' ↔
      ∃ source s₁, step.Fails s source s₁ ∧ e = setup.failureIn phase p source ∧
        s' = { s₁ with notices := s₁.notices.push (.failed setup.config.failureLevel e) } := by
  unfold inContext Build.Fails
  rw [Build.outcome_tryCatch]
  rcases step.outcome s with ⟨source | b, s₁⟩
  · simp only [Setup.fail, Build.notice, Build.outcome_bind, Build.outcome_modify,
      Build.outcome_pure, Build.outcome_throw, Prod.mk.injEq, Except.error.injEq]
    constructor
    · rintro ⟨rfl, rfl⟩
      exact ⟨source, s₁, ⟨rfl, rfl⟩, rfl, rfl⟩
    · rintro ⟨_, _, ⟨rfl, rfl⟩, rfl, rfl⟩
      exact ⟨rfl, rfl⟩
  · simp

/-- What holds between the states of a step, and over telling of its failure. -/
theorem keeps_inContext {R : BuildState → BuildState → Prop} [IsPreorder BuildState R]
    (hnotice : ∀ e, Build.Keeps R (Build.notice (.failed setup.config.failureLevel e)))
    (h : Build.Keeps R step) : Build.Keeps R (setup.inContext phase p step) :=
  Build.Keeps.tryCatch h fun _ =>
    Build.Keeps.bind (Build.Keeps.bind (hnotice _) fun _ => Build.Keeps.pure _) fun _ =>
      Build.Keeps.throw _

end Setup

end ClrImage
