import ClrImage.Proofs.Alone
import ClrImage.Proofs.Growth
import Mathlib.Logic.Relation

/-!
# Threads under interference

What holds of a thread although others take steps between its own. A thread relies on what the
others may change, guarantees what it changes itself, and keeps an invariant that all threads have
in common. If what each thread guarantees is what the others rely on, then whatever has been shown
of each thread by itself holds of all of them side by side, for every schedule.

- `Terms`: the invariant, what is relied on, and what is guaranteed.
- `Thread.Safe`: a thread keeps to its terms, `P` holds of its result, and `E` of its failure. The
  rules follow the ways of putting threads together (`Safe.lift`, `Safe.bind`, `Safe.mapM`, …).
- `Crew.Safe`: all threads keep to their terms; every turn preserves it.
- `yields_sideBySide`, `fails_sideBySide`: what holds behind threads side by side.
- `blamed_sideBySide`: any thread may be the one whose failure is reported.
-/

namespace ClrImage

/-- What a thread and the threads beside it have agreed on. -/
structure Terms where
  invariant : BuildState → Prop
  /-- What others may change between two steps of the thread. -/
  rely : BuildState → BuildState → Prop
  /-- What a step of the thread may change. -/
  guarantee : BuildState → BuildState → Prop
  refl : ∀ s, rely s s
  trans : ∀ {s s₁ s₂}, rely s s₁ → rely s₁ s₂ → rely s s₂

/-- The second state comes behind the first one: the thread and others have taken steps. -/
def Terms.Passes (c : Terms) : BuildState → BuildState → Prop :=
  Relation.ReflTransGen fun s s' => c.rely s s' ∨ c.guarantee s s'

namespace Terms.Passes

variable {c : Terms} {s s₁ s' : BuildState}

theorem of_rely (h : c.rely s s') : c.Passes s s' := .single (.inl h)

theorem of_step (hrely : c.rely s s₁) (hstep : c.guarantee s₁ s') : c.Passes s s' :=
  (of_rely hrely).tail (.inr hstep)

/-- Whatever holds over all single changes, and is reflexive and transitive, holds between the
states. -/
theorem related {H : BuildState → BuildState → Prop} [IsPreorder BuildState H]
    (hrely : ∀ s s', c.rely s s' → H s s') (hguarantee : ∀ s s', c.guarantee s s' → H s s')
    (h : c.Passes s s') : H s s' := by
  induction h with
  | refl => exact refl_of H s
  | tail _ hstep ih => exact trans_of H ih (hstep.elim (hrely _ _) (hguarantee _ _))

end Terms.Passes

namespace Thread

variable {α β γ : Type} {c : Terms} {P : α → BuildState → Prop} {E : Failure → BuildState → Prop}
  {t : Thread α} {s s' : BuildState}

/-- From the state `s` on, whatever others do, every step of the thread keeps to the terms. In every
state behind the last step, `P` holds of the result, or `E` of the failure. -/
def Safe (c : Terms) (P : α → BuildState → Prop) (E : Failure → BuildState → Prop) :
    Thread α → BuildState → Prop
  | .done (.ok a), s => ∀ s', c.rely s s' → c.invariant s' → P a s'
  | .done (.error e), s => ∀ s', c.rely s s' → c.invariant s' → E e s'
  | .step action next, s => ∀ s₁, c.rely s s₁ → c.invariant s₁ →
    c.invariant (action.outcome s₁).2 ∧ c.guarantee s₁ (action.outcome s₁).2 ∧
      (next (action.outcome s₁).1).Safe c P E (action.outcome s₁).2

namespace Safe

/-- A thread is safe in a state if it is safe behind all interference. -/
theorem of_later (h : ∀ s', c.rely s s' → c.invariant s' → t.Safe c P E s') : t.Safe c P E s := by
  cases t with
  | done outcome =>
    cases outcome <;> exact fun s' hs' hinv => h s' hs' hinv s' (c.refl s') hinv
  | step action next => exact fun s₁ hs₁ hinv => h s₁ hs₁ hinv s₁ (c.refl s₁) hinv

/-- A thread that is safe stays so under interference. -/
theorem later (h : t.Safe c P E s) (hs : c.rely s s') : t.Safe c P E s' := by
  cases t with
  | done outcome => cases outcome <;> exact fun s₁ hs₁ => h s₁ (c.trans hs hs₁)
  | step action next => exact fun s₁ hs₁ => h s₁ (c.trans hs hs₁)

/-- Less may be claimed of the outcome, and what follows since the start. -/
theorem imp {P' : α → BuildState → Prop} {E' : Failure → BuildState → Prop} (h : t.Safe c P E s)
    (hP : ∀ a s', c.Passes s s' → c.invariant s' → P a s' → P' a s')
    (hE : ∀ e s', c.Passes s s' → c.invariant s' → E e s' → E' e s') : t.Safe c P' E' s := by
  induction t generalizing s with
  | done outcome =>
    cases outcome with
    | ok a => exact fun s' hs' hinv => hP a s' (.of_rely hs') hinv (h s' hs' hinv)
    | error e => exact fun s' hs' hinv => hE e s' (.of_rely hs') hinv (h s' hs' hinv)
  | step action next ih =>
    intro s₁ hs₁ hinv
    obtain ⟨hinv', hguarantee, hnext⟩ := h s₁ hs₁ hinv
    have hpasses := Terms.Passes.of_step hs₁ hguarantee
    exact ⟨hinv', hguarantee, ih _ hnext (fun a s' hs' => hP a s' (hpasses.trans hs'))
      fun e s' hs' => hE e s' (hpasses.trans hs')⟩

/-- What interference and the steps of a thread preserve holds behind the thread. The steps may
guarantee more than the terms ask for. -/
theorem preserving {more : BuildState → BuildState → Prop} {J : BuildState → Prop}
    (h : t.Safe { c with guarantee := more } P E s) (hJ : J s)
    (hmore : ∀ s s', more s s' → c.guarantee s s') (hbetween : ∀ s s', c.rely s s' → J s → J s')
    (hsteps : ∀ s s', more s s' → J s → J s') :
    t.Safe c (fun a s => P a s ∧ J s) (fun e s => E e s ∧ J s) s := by
  induction t generalizing s with
  | done outcome =>
    cases outcome <;> exact fun s' hs' hinv => ⟨h s' hs' hinv, hbetween s s' hs' hJ⟩
  | step action next ih =>
    intro s₁ hs₁ hinv
    obtain ⟨hinv', hstep, hnext⟩ := h s₁ hs₁ hinv
    exact ⟨hinv', hmore _ _ hstep, ih _ hnext (hsteps _ _ hstep (hbetween s s₁ hs₁ hJ))⟩

/-! ### Putting threads together -/

theorem pure {a : α} (h : ∀ s', c.rely s s' → c.invariant s' → P a s') :
    (pure a : Thread α).Safe c P E s := h

theorem throw {e : Failure} (h : ∀ s', c.rely s s' → c.invariant s' → E e s') :
    (throw e : Thread α).Safe c P E s := h

/-- A thread of one step. -/
theorem lift {action : Build α}
    (h : ∀ s₁, c.rely s s₁ → c.invariant s₁ →
      c.invariant (action.outcome s₁).2 ∧ c.guarantee s₁ (action.outcome s₁).2 ∧
      ∀ s', c.rely (action.outcome s₁).2 s' → c.invariant s' →
        (∀ a, (action.outcome s₁).1 = .ok a → P a s') ∧
        ∀ e, (action.outcome s₁).1 = .error e → E e s') :
    (liftM action : Thread α).Safe c P E s := by
  intro s₁ hs₁ hinv
  obtain ⟨hinv', hguarantee, hend⟩ := h s₁ hs₁ hinv
  refine ⟨hinv', hguarantee, ?_⟩
  rcases houtcome : (action.outcome s₁).1 with e | a
  · exact fun s' hs' hinv' => (hend s' hs' hinv').2 e houtcome
  · exact fun s' hs' hinv' => (hend s' hs' hinv').1 a houtcome

/-- A thread of one step that does not fail. -/
theorem lift_of_yields {action : Build α}
    (h : ∀ s₁, c.rely s s₁ → c.invariant s₁ → ∃ a s₂, action.Yields s₁ a s₂ ∧
      c.invariant s₂ ∧ c.guarantee s₁ s₂ ∧
      ∀ s', c.rely s₂ s' → c.invariant s' → P a s') :
    (liftM action : Thread α).Safe c P E s := by
  refine lift fun s₁ hs₁ hinv => ?_
  obtain ⟨a, s₂, hrun, hinv₂, hguarantee, hend⟩ := h s₁ hs₁ hinv
  rw [show action.outcome s₁ = _ from hrun]
  refine ⟨hinv₂, hguarantee, fun s' hs' hinv' => ⟨fun a' ha' => ?_, fun e he => ?_⟩⟩
  · exact Except.ok.inj ha' ▸ hend s' hs' hinv'
  · cases he

/-- Threads in sequence. A failure of the first one is the failure of the whole. -/
theorem bind {f : α → Thread β} {P' : β → BuildState → Prop} (h : t.Safe c P E s)
    (hnext : ∀ a s', c.Passes s s' → c.invariant s' → P a s' → (f a).Safe c P' E s') :
    (t >>= f).Safe c P' E s := by
  induction t generalizing s with
  | done outcome =>
    cases outcome with
    | error e => exact h
    | ok a => exact of_later fun s' hs' hinv => hnext a s' (.of_rely hs') hinv (h s' hs' hinv)
  | step action next ih =>
    intro s₁ hs₁ hinv
    obtain ⟨hinv', hstep, hlater⟩ := h s₁ hs₁ hinv
    have hpasses := Terms.Passes.of_step hs₁ hstep
    exact ⟨hinv', hstep, ih _ hlater fun a s' hs' => hnext a s' (hpasses.trans hs')⟩

/-- A thread and the handler of its failures. -/
theorem tryCatch {handle : Failure → Thread α} {E' : Failure → BuildState → Prop}
    (h : t.Safe c P E s)
    (hhandle : ∀ e s', c.Passes s s' → c.invariant s' → E e s' → (handle e).Safe c P E' s') :
    (tryCatch t handle).Safe c P E' s := by
  induction t generalizing s with
  | done outcome =>
    cases outcome with
    | error e => exact of_later fun s' hs' hinv => hhandle e s' (.of_rely hs') hinv (h s' hs' hinv)
    | ok a => exact h
  | step action next ih =>
    intro s₁ hs₁ hinv
    obtain ⟨hinv', hstep, hlater⟩ := h s₁ hs₁ hinv
    have hpasses := Terms.Passes.of_step hs₁ hstep
    exact ⟨hinv', hstep, ih _ hlater fun e s' hs' => hhandle e s' (hpasses.trans hs')⟩

/-- A thread for each element, one behind the other, that goes on from what they have come to. The
invariant speaks of the elements that are done. -/
theorem foldlM {f : β → γ → Thread β} {l : List γ} {b : β} {P : β → BuildState → Prop}
    (J : List γ → β → BuildState → Prop)
    (stable : ∀ done b s s', c.rely s s' → J done b s → J done b s') (start : J [] b s)
    (step : ∀ done a todo b s', l = done ++ a :: todo → c.Passes s s' → c.invariant s' →
      J done b s' → (f b a).Safe c (J (done ++ [a])) E s')
    (stop : ∀ b s', c.invariant s' → J l b s' → P b s') : (l.foldlM f b).Safe c P E s := by
  -- the induction is on what is still to do, wherever the thread has got to
  suffices ∀ done todo b s', l = done ++ todo → c.Passes s s' → J done b s' →
      (todo.foldlM f b).Safe c P E s' from this [] l b s rfl .refl start
  intro done todo
  induction todo generalizing done with
  | nil =>
    intro b s' hl _ hJ
    rw [List.append_nil] at hl
    exact Safe.pure fun s₁ hs₁ hinv => stop b s₁ hinv (hl ▸ stable _ b s' s₁ hs₁ hJ)
  | cons a todo ih =>
    intro b s' hl hs' hJ
    rw [List.foldlM_cons]
    refine of_later fun s₁ hs₁ hinv => ?_
    have hs₁' := hs'.tail (.inl hs₁)
    exact (step done a todo b s₁ hl hs₁' hinv (stable _ b s' s₁ hs₁ hJ)).bind
      fun b' s₂ hs₂ _ hJ' => ih (done ++ [a]) b' s₂ (by simp [hl]) (hs₁'.trans hs₂) hJ'

/-- A thread for each element, one behind the other. -/
theorem forM {f : γ → Thread Unit} {l : List γ} {P : Unit → BuildState → Prop}
    (J : List γ → BuildState → Prop) (stable : ∀ done s s', c.rely s s' → J done s → J done s')
    (start : J [] s)
    (step : ∀ done a todo s', l = done ++ a :: todo → c.Passes s s' → c.invariant s' →
      J done s' → (f a).Safe c (fun _ => J (done ++ [a])) E s')
    (stop : ∀ s', c.invariant s' → J l s' → P () s') : (l.forM f).Safe c P E s := by
  suffices ∀ done todo s', l = done ++ todo → c.Passes s s' → J done s' →
      (todo.forM f).Safe c P E s' from this [] l s rfl .refl start
  intro done todo
  induction todo generalizing done with
  | nil =>
    intro s' hl _ hJ
    rw [List.append_nil] at hl
    exact Safe.pure fun s₁ hs₁ hinv => stop s₁ hinv (hl ▸ stable _ s' s₁ hs₁ hJ)
  | cons a todo ih =>
    intro s' hl hs' hJ
    refine of_later fun s₁ hs₁ hinv => ?_
    have hs₁' := hs'.tail (.inl hs₁)
    exact (step done a todo s₁ hl hs₁' hinv (stable _ s' s₁ hs₁ hJ)).bind
      fun _ s₂ hs₂ _ hJ' => ih (done ++ [a]) s₂ (by simp [hl]) (hs₁'.trans hs₂) hJ'

/-- A thread for each element, one behind the other, each of which can be started at any time. -/
theorem forM_each {f : γ → Thread Unit} {l : List γ}
    (each : ∀ a ∈ l, ∀ s', c.Passes s s' → c.invariant s' →
      (f a).Safe c (fun _ _ => True) E s') : (l.forM f).Safe c (fun _ _ => True) E s :=
  forM (fun _ _ => True) (fun _ _ _ _ => id) trivial
    (fun done a todo s' hl hs' hinv _ => each a (by simp [hl]) s' hs' hinv) fun _ _ _ => trivial

/-- A search by threads. -/
theorem findM? {f : γ → Thread Bool} {l : List γ}
    (each : ∀ a ∈ l, ∀ s', c.Passes s s' → c.invariant s' →
      (f a).Safe c (fun _ _ => True) E s') : (l.findM? f).Safe c (fun _ _ => True) E s := by
  induction l generalizing s with
  | nil => exact Safe.pure fun _ _ _ => trivial
  | cons a l ih =>
    rw [List.findM?]
    refine of_later fun s₀ hs₀ hinv₀ => ?_
    have hpasses := Terms.Passes.of_rely hs₀
    refine (each a List.mem_cons_self s₀ hpasses hinv₀).bind fun found s₁ hs₁ _ _ => ?_
    cases found with
    | true => exact Safe.pure fun _ _ _ => trivial
    | false =>
      exact ih fun a' ha' s' hs' =>
        each a' (List.mem_cons_of_mem a ha') s' ((hpasses.trans hs₁).trans hs')

/-- Threads for all elements, one behind the other, and what holds of their results. What holds of a
result goes on to hold, and what holds between two threads is preserved by each of them. -/
theorem mapM {f : γ → Thread β} {l : List γ} {P : γ → β → BuildState → Prop}
    {J : BuildState → Prop}
    (hP : ∀ a b s s', c.Passes s s' → c.invariant s → P a b s → P a b s')
    (hJ : ∀ s s', c.rely s s' → J s → J s') (start : J s)
    (each : ∀ a ∈ l, ∀ s', c.Passes s s' → c.invariant s' → J s' →
      (f a).Safe c (fun b s' => P a b s' ∧ J s') E s') :
    (l.mapM f).Safe c (fun bs s' => List.Forall₂ (P · · s') l bs ∧ J s') E s := by
  induction l generalizing s with
  | nil =>
    rw [List.mapM_nil]
    exact Safe.pure fun s' hs' _ => ⟨.nil, hJ s s' hs' start⟩
  | cons a l ih =>
    rw [List.mapM_cons]
    refine of_later fun s₀ hs₀ hinv₀ => ?_
    have hpasses := Terms.Passes.of_rely hs₀
    refine (each a List.mem_cons_self s₀ hpasses hinv₀ (hJ s s₀ hs₀ start)).bind
      fun b s₁ hs₁ hinv₁ ⟨hb, hJ₁⟩ => ?_
    refine (ih hJ₁ fun a' ha' s' hs' => each a' (List.mem_cons_of_mem a ha') s'
      ((hpasses.trans hs₁).trans hs')).bind fun bs s₂ hs₂ hinv₂ ⟨hbs, hJ₂⟩ => ?_
    refine Safe.pure fun s' hs' _ => ⟨.cons ?_ ?_, hJ s₂ s' hs' hJ₂⟩
    · exact hP a b s₁ s' (hs₂.tail (.inl hs')) hinv₁ hb
    · exact hbs.imp fun a b hP' => hP a b s₂ s' (.of_rely hs') hinv₂ hP'

/-- The same without an invariant. -/
theorem mapM_each {f : γ → Thread β} {l : List γ} {P : γ → β → BuildState → Prop}
    (hP : ∀ a b s s', c.Passes s s' → c.invariant s → P a b s → P a b s')
    (each : ∀ a ∈ l, ∀ s', (f a).Safe c (P a) E s') :
    (l.mapM f).Safe c (fun bs s' => List.Forall₂ (P · · s') l bs) E s := by
  refine (mapM (J := fun _ => True) hP (fun _ _ _ => id) trivial fun a ha s' _ _ _ => ?_).imp
    (fun _ _ _ _ h => h.1) fun _ _ _ _ => id
  exact (each a ha s').imp (fun _ _ _ _ h => ⟨h, trivial⟩) fun _ _ _ _ => id

end Safe

end Thread

/-! ## Threads side by side -/

variable {α κ : Type} {I : BuildState → Prop} {terms : κ → Terms} {P : κ → α → BuildState → Prop}
  {E : κ → Failure → BuildState → Prop} {k : κ} {ks : List κ} {s s' : BuildState}

/-- Some of the threads `ks` have taken steps, each as its terms allow. -/
def Terms.Moves (terms : κ → Terms) (ks : List κ) : BuildState → BuildState → Prop :=
  Relation.ReflTransGen fun s s' => ∃ k ∈ ks, (terms k).invariant s ∧ (terms k).guarantee s s'

namespace Terms.Moves

theorem mono {ks' : List κ} (h : Terms.Moves terms ks s s') (hks : ks ⊆ ks') :
    Terms.Moves terms ks' s s' := by
  refine Relation.ReflTransGen.mono ?_ s s' h
  rintro s s' ⟨k, hk, hstep⟩
  exact ⟨k, hks hk, hstep⟩

/-- Whatever holds over all steps, and is reflexive and transitive, holds between the states. -/
theorem related {H : BuildState → BuildState → Prop} [IsPreorder BuildState H]
    (hsteps : ∀ k ∈ ks, ∀ s s', (terms k).invariant s → (terms k).guarantee s s' → H s s')
    (h : Terms.Moves terms ks s s') : H s s' := by
  induction h with
  | refl => exact refl_of H s
  | tail _ hstep ih =>
    obtain ⟨k, hk, hinv, hguarantee⟩ := hstep
    exact trans_of H ih (hsteps k hk _ _ hinv hguarantee)

/-- A thread that relies on what each of the others guarantees relies on all of their steps. -/
theorem rely (hsteps : ∀ j ∈ ks, ∀ s s', (terms j).invariant s → (terms j).guarantee s s' →
    (terms k).rely s s') (h : Terms.Moves terms ks s s') : (terms k).rely s s' := by
  have : IsPreorder BuildState (terms k).rely :=
    { refl := (terms k).refl, trans := fun _ _ _ => (terms k).trans }
  exact h.related hsteps

end Terms.Moves

/-- The threads have agreed: they keep the invariant `I`, and what one of two threads guarantees is
what the other one relies on. -/
structure Terms.Agree (terms : κ → Terms) (I : BuildState → Prop) (ks : List κ) : Prop where
  invariant : ∀ k, (terms k).invariant = I
  pairwise : ks.Pairwise fun j k => ∀ s s', I s →
    ((terms j).guarantee s s' → (terms k).rely s s') ∧
    ((terms k).guarantee s s' → (terms j).rely s s')

theorem Terms.Agree.tail (h : Terms.Agree terms I (k :: ks)) : Terms.Agree terms I ks :=
  ⟨h.invariant, (List.pairwise_cons.mp h.pairwise).2⟩

/-- The first thread relies on what the others do. -/
theorem Terms.Agree.head_relies (h : Terms.Agree terms I (k :: ks))
    (hmoves : Terms.Moves terms ks s s') : (terms k).rely s s' :=
  hmoves.rely fun j hj s s' hinv hguarantee =>
    ((List.pairwise_cons.mp h.pairwise).1 j hj s s' (h.invariant j ▸ hinv)).2 hguarantee

/-- The others rely on what the first thread does. -/
theorem Terms.Agree.tail_relies (h : Terms.Agree terms I (k :: ks))
    (hmoves : Terms.Moves terms [k] s s') {j : κ} (hj : j ∈ ks) : (terms j).rely s s' := by
  refine hmoves.rely fun i hi s s' hinv hguarantee => ?_
  obtain rfl := List.mem_singleton.mp hi
  exact ((List.pairwise_cons.mp h.pairwise).1 j hj s s' (h.invariant i ▸ hinv)).1 hguarantee

namespace Worker

variable {w : Worker α}

/-- The thread of a worker keeps to its terms, and does so when the worker has taken a step. -/
theorem safe_turn (hw : w.thread.Safe (terms k) (P k) (E k) s) (hs : (terms k).invariant s) :
    (w.turn s).1.thread.Safe (terms k) (P k) (E k) (w.turn s).2 ∧
      (terms k).invariant (w.turn s).2 ∧ Terms.Moves terms [k] s (w.turn s).2 := by
  obtain ⟨thread, started⟩ := w
  cases thread with
  | done outcome => exact ⟨hw, hs, .refl⟩
  | step action next =>
    obtain ⟨hinv, hguarantee, hnext⟩ := hw s ((terms k).refl s) hs
    exact ⟨hnext, hinv, .single ⟨k, List.mem_singleton_self k, hs, hguarantee⟩⟩

/-- So it does when the worker has finished. -/
theorem safe_finish (hw : w.thread.Safe (terms k) (P k) (E k) s) (hs : (terms k).invariant s) :
    (w.finish s).1.thread.Safe (terms k) (P k) (E k) (w.finish s).2 ∧
      (terms k).invariant (w.finish s).2 ∧ Terms.Moves terms [k] s (w.finish s).2 := by
  obtain ⟨thread, started⟩ := w
  induction thread generalizing s with
  | done outcome => exact ⟨hw, hs, .refl⟩
  | step action next ih =>
    obtain ⟨hinv, hguarantee, hnext⟩ := hw s ((terms k).refl s) hs
    obtain ⟨hsafe, hinv', hmoves⟩ := ih _ hinv hnext
    exact ⟨hsafe, hinv', .head ⟨k, List.mem_singleton_self k, hs, hguarantee⟩ hmoves⟩

end Worker

namespace Crew

/-- All workers keep to their terms. -/
def Safe (terms : κ → Terms) (P : κ → α → BuildState → Prop) (E : κ → Failure → BuildState → Prop)
    (ks : List κ) (crew : Crew α) (s : BuildState) : Prop :=
  List.Forall₂ (fun k w => w.thread.Safe (terms k) (P k) (E k) s) ks crew

variable {crew : Crew α}

/-- Workers stay safe while the first one takes steps. -/
theorem Safe.tail_later {j : κ} (hagree : Terms.Agree terms I (j :: ks))
    (h : Crew.Safe terms P E ks crew s) (hmoves : Terms.Moves terms [j] s s') :
    Crew.Safe terms P E ks crew s' := by
  unfold Crew.Safe at h ⊢
  rw [List.forall₂_iff_get] at h ⊢
  refine ⟨h.1, fun i h₁ h₂ => (h.2 i h₁ h₂).later ?_⟩
  exact hagree.tail_relies hmoves (List.getElem_mem h₁)

theorem safe_turn (hagree : Terms.Agree terms I ks) (h : Crew.Safe terms P E ks crew s) (hs : I s)
    (i : Nat) : Crew.Safe terms P E ks (turn i crew s).1 (turn i crew s).2 ∧ I (turn i crew s).2 ∧
      Terms.Moves terms ks s (turn i crew s).2 := by
  induction h generalizing i with
  | nil => cases i <;> exact ⟨.nil, hs, .refl⟩
  | @cons k w ks rest hw hrest ih =>
    cases i with
    | zero =>
      -- the first worker takes the step, and the others rely on it
      obtain ⟨hw', hinv, hmoves⟩ := Worker.safe_turn hw (hagree.invariant k ▸ hs)
      exact ⟨.cons hw' (Safe.tail_later hagree hrest hmoves), hagree.invariant k ▸ hinv,
        hmoves.mono (by simp)⟩
    | succ i =>
      -- another one does, and the first worker relies on it
      obtain ⟨hrest', hinv, hmoves⟩ := ih hagree.tail i
      exact ⟨.cons (hw.later (hagree.head_relies hmoves)) hrest', hinv,
        hmoves.mono (List.subset_cons_self k ks)⟩

theorem safe_turns (hagree : Terms.Agree terms I ks) (h : Crew.Safe terms P E ks crew s) (hs : I s)
    (is : List Nat) : Crew.Safe terms P E ks (turns is crew s).1 (turns is crew s).2 ∧
      I (turns is crew s).2 ∧ Terms.Moves terms ks s (turns is crew s).2 := by
  induction is generalizing crew s with
  | nil => exact ⟨h, hs, .refl⟩
  | cons i is ih =>
    obtain ⟨h₁, hs₁, hmoves₁⟩ := safe_turn hagree h hs i
    obtain ⟨h₂, hs₂, hmoves₂⟩ := ih h₁ hs₁
    exact ⟨h₂, hs₂, hmoves₁.trans hmoves₂⟩

theorem safe_windUp (hagree : Terms.Agree terms I ks) (h : Crew.Safe terms P E ks crew s)
    (hs : I s) (failed : Bool) :
    Crew.Safe terms P E ks (windUp failed crew s).1 (windUp failed crew s).2 ∧
      I (windUp failed crew s).2 ∧ Terms.Moves terms ks s (windUp failed crew s).2 := by
  induction ks generalizing crew s failed with
  | nil =>
    cases h
    exact ⟨.nil, hs, .refl⟩
  | cons k ks ih =>
    obtain - | ⟨hw, hrest⟩ := h
    unfold windUp
    split
    -- the first worker is not started any more
    · obtain ⟨hrest', hinv, hmoves⟩ := ih hagree.tail hrest hs failed
      exact ⟨.cons (hw.later (hagree.head_relies hmoves)) hrest', hinv,
        hmoves.mono (List.subset_cons_self k ks)⟩
    -- it goes on to its end, and then the others do
    · obtain ⟨hw₁, hinv₁, hmoves₁⟩ := Worker.safe_finish hw (hagree.invariant k ▸ hs)
      have hrest₁ := Safe.tail_later hagree hrest hmoves₁
      obtain ⟨hrest', hinv, hmoves⟩ := ih hagree.tail hrest₁ (hagree.invariant k ▸ hinv₁) _
      exact ⟨.cons (hw₁.later (hagree.head_relies hmoves)) hrest', hinv,
        (hmoves₁.mono (by simp)).trans (hmoves.mono (List.subset_cons_self k ks))⟩

/-! ### Who comes to an end -/

theorem failure?_eq_some {w : Worker α} {e : Failure} :
    w.failure? = some e ↔ w = ⟨.done (.error e), true⟩ := by
  obtain ⟨_ | ⟨action, next⟩, _ | _⟩ := w
  case done.true outcome => cases outcome <;> simp [Worker.failure?, Worker.outcome?]
  all_goals simp [Worker.failure?, Worker.outcome?]

theorem result?_eq_some {w : Worker α} {a : α} :
    w.result? = some a ↔ w = ⟨.done (.ok a), true⟩ := by
  obtain ⟨_ | ⟨action, next⟩, _ | _⟩ := w
  case done.true outcome =>
    cases outcome <;> simp [Worker.result?, Worker.outcome?, Except.toOption]
  all_goals simp [Worker.result?, Worker.outcome?]

/-- A worker that has finished has failed or come to a result. -/
theorem finish_ends (w : Worker α) (s : BuildState) :
    (w.finish s).1.failure?.isSome ∨ (w.finish s).1.result?.isSome := by
  unfold Worker.finish
  rcases w.thread.alone.run.run s with ⟨e | a, s'⟩
  · exact .inl rfl
  · exact .inr rfl

/-- A failure stays. -/
theorem any_failure?_windUp {crew : Crew α} (h : crew.any (·.failure?.isSome) = true)
    (failed : Bool) (s : BuildState) :
    (windUp failed crew s).1.any (·.failure?.isSome) = true := by
  induction crew generalizing failed s with
  | nil => cases h
  | cons w rest ih =>
    rw [List.any_cons, Bool.or_eq_true] at h
    unfold windUp
    split
    next hidle =>
      rcases h with hw | hrest
      · -- a worker that has failed has been started, so it is not passed over
        obtain ⟨e, he⟩ := Option.isSome_iff_exists.mp hw
        rw [failure?_eq_some.mp he] at hidle
        simp at hidle
      · simp [ih hrest]
    next =>
      rcases h with hw | hrest
      · obtain ⟨e, he⟩ := Option.isSome_iff_exists.mp hw
        rw [failure?_eq_some.mp he]
        rfl
      · simp [ih hrest]

/-- Unless some worker has failed, all come to a result. -/
theorem results_windUp {crew : Crew α}
    (h : (windUp false crew s).1.any (·.failure?.isSome) = false) :
    ∀ w ∈ (windUp false crew s).1, w.result?.isSome := by
  induction crew generalizing s with
  | nil => exact nofun
  | cons w rest ih =>
    unfold windUp at h ⊢
    simp only [Bool.false_and, Bool.false_eq_true, if_false, Bool.false_or, List.any_cons,
      Bool.or_eq_false_iff] at h ⊢
    -- as the first worker has not failed, the others are started too
    obtain ⟨hw, hrest⟩ := h
    rw [hw] at hrest ⊢
    rw [List.forall_mem_cons]
    exact ⟨(finish_ends w s).resolve_left (by simp [hw]), ih hrest⟩

/-- Workers that have taken turns and wound up have all come to a result, unless one has failed. -/
theorem results_run {σ : Schedule} {crew : Crew α}
    (h : (run σ crew s).1.any (·.failure?.isSome) = false) :
    ∀ w ∈ (run σ crew s).1, w.result?.isSome := by
  unfold run at h ⊢
  dsimp only at h ⊢
  -- a failure in a turn would still be there in the end
  cases hfailed : (turns σ.turns crew s).1.any (·.failure?.isSome) with
  | true =>
    rw [any_failure?_windUp hfailed] at h
    cases h
  | false =>
    rw [hfailed] at h
    exact results_windUp h

/-- A worker that has taken a step has been started. -/
theorem started_turn {crew : Crew α} {i : Nat} (hi : i < crew.length) (s : BuildState) :
    ∃ w, (turn i crew s).1[i]? = some w ∧ w.started = true := by
  induction crew generalizing i with
  | nil => exact absurd hi (Nat.not_lt_zero i)
  | cons w rest ih =>
    cases i with
    | zero =>
      refine ⟨(w.turn s).1, rfl, ?_⟩
      obtain ⟨thread, started⟩ := w
      cases thread <;> rfl
    | succ i => exact ih (Nat.lt_of_succ_lt_succ hi)

/-- A worker that has been started comes to its end. -/
theorem ended_windUp {crew : Crew α} {i : Nat} {w : Worker α} (hw : crew[i]? = some w)
    (hstarted : w.started = true) (failed : Bool) (s : BuildState) :
    ∃ w, (windUp failed crew s).1[i]? = some w ∧ (w.failure?.isSome ∨ w.result?.isSome) := by
  induction crew generalizing i failed s with
  | nil => simp at hw
  | cons w₀ rest ih =>
    unfold windUp
    split
    next hidle =>
      cases i with
      | zero =>
        obtain rfl : w₀ = w := by simpa using hw
        simp [hstarted] at hidle
      | succ i => exact ih (by simpa using hw) failed s
    next =>
      cases i with
      | zero => exact ⟨(w₀.finish s).1, rfl, finish_ends w₀ s⟩
      | succ i => exact ih (by simpa using hw) _ _

/-- Each worker keeps to the terms of its place. -/
theorem Safe.of_getElem? (h : Crew.Safe terms P E ks crew s) {i : Nat} {w : Worker α}
    (hk : ks[i]? = some k) (hw : crew[i]? = some w) :
    w.thread.Safe (terms k) (P k) (E k) s := by
  obtain ⟨hi, rfl⟩ := List.getElem?_eq_some_iff.mp hk
  obtain ⟨hj, rfl⟩ := List.getElem?_eq_some_iff.mp hw
  exact (List.forall₂_iff_get.mp h).2 i hi hj

/-- The results of workers that keep to their terms. -/
theorem Safe.results (hinvariant : ∀ k, (terms k).invariant = I)
    (h : Crew.Safe terms P E ks crew s) (hs : I s) (hresults : ∀ w ∈ crew, w.result?.isSome) :
    List.Forall₂ (fun k a => P k a s) ks (crew.filterMap Worker.result?) := by
  induction h with
  | nil => exact .nil
  | @cons k w ks rest hw _ ih =>
    obtain ⟨hresult, hrest⟩ := List.forall_mem_cons.mp hresults
    obtain ⟨a, ha⟩ := Option.isSome_iff_exists.mp hresult
    rw [List.filterMap_cons_some ha]
    rw [result?_eq_some.mp ha] at hw
    exact .cons (hw s ((terms k).refl s) (hinvariant k ▸ hs)) (ih hrest)

/-- The failure of a worker that keeps to its terms. -/
theorem Safe.failure (hinvariant : ∀ k, (terms k).invariant = I)
    (h : Crew.Safe terms P E ks crew s) (hs : I s) {w : Worker α} (hw : w ∈ crew) {e : Failure}
    (he : w.failure? = some e) : ∃ k ∈ ks, E k e s := by
  obtain ⟨k, hk, hsafe⟩ := exists_of_forall₂ h.flip hw
  rw [failure?_eq_some.mp he] at hsafe
  exact ⟨k, hk, hsafe s ((terms k).refl s) (hinvariant k ▸ hs)⟩

/-- A failure is reported exactly if some worker has failed, and it is the failure of one. -/
theorem exists_of_outcome_eq_error {blame : Nat} {crew : Crew α} {e : Failure}
    (h : crew.outcome blame = .error e) : ∃ w ∈ crew, w.failure? = some e := by
  unfold outcome at h
  split at h
  next e' hblame =>
    obtain rfl := Except.error.inj h
    rw [Option.orElse_eq_orElse, Option.orElse_eq_or, Option.or_eq_some_iff] at hblame
    rcases hblame with hblame | ⟨-, hfirst⟩
    · obtain ⟨w, hw, he⟩ := Option.bind_eq_some_iff.mp hblame
      exact ⟨w, List.mem_of_getElem? hw, he⟩
    · exact List.exists_of_findSome?_eq_some hfirst
  next => cases h

theorem of_outcome_eq_ok {blame : Nat} {crew : Crew α} {as : List α}
    (h : crew.outcome blame = .ok as) :
    crew.any (·.failure?.isSome) = false ∧ as = crew.filterMap Worker.result? := by
  unfold outcome at h
  split at h
  next => cases h
  next hblame =>
    rw [Option.orElse_eq_orElse, Option.orElse_eq_or, Option.or_eq_none_iff,
      List.findSome?_eq_none_iff] at hblame
    refine ⟨List.any_eq_false.mpr fun w hw => ?_, (Except.ok.inj h).symm⟩
    simp [hblame.2 w hw]

end Crew

/-! ## What holds behind threads side by side -/

/-- One thread takes the first step, and its failure is reported if it fails. -/
def Schedule.blaming (i : Nat) : Schedule := ⟨[i], i⟩

/-- A list beside another one whose elements are related to those of the first. -/
theorem forall₂_zip {α β : Type} {R : α → β → Prop} {l : List α} {l' : List β}
    (h : List.Forall₂ R l l') :
    List.Forall₂ (fun a entry => entry.1 = a ∧ R a entry.2) l (l.zip l') := by
  induction h with
  | nil => exact .nil
  | cons hab _ ih => exact .cons ⟨rfl, hab⟩ ih

section

variable {σ : Schedule} {threads : List (Thread α)}

theorem Crew.safe_run (hagree : Terms.Agree terms I ks)
    (hsafe : List.Forall₂ (fun k t => t.Safe (terms k) (P k) (E k) s) ks threads) (hs : I s) :
    Crew.Safe terms P E ks (Crew.run σ (threads.map ({ thread := · })) s).1
        (Crew.run σ (threads.map ({ thread := · })) s).2 ∧
      I (Crew.run σ (threads.map ({ thread := · })) s).2 ∧
      Terms.Moves terms ks s (Crew.run σ (threads.map ({ thread := · })) s).2 := by
  have hnew : Crew.Safe terms P E ks (threads.map ({ thread := · })) s :=
    List.forall₂_map_right_iff.mpr hsafe
  obtain ⟨h₁, hs₁, hmoves₁⟩ := Crew.safe_turns hagree hnew hs σ.turns
  obtain ⟨h₂, hs₂, hmoves₂⟩ := Crew.safe_windUp hagree h₁ hs₁ _
  exact ⟨h₂, hs₂, hmoves₁.trans hmoves₂⟩

/-- Threads side by side that all keep to terms on which they agree: if all come to a result, then
what has been shown of each of them by itself holds in the state behind all of them. -/
theorem yields_sideBySide (hagree : Terms.Agree terms I ks)
    (hsafe : List.Forall₂ (fun k t => t.Safe (terms k) (P k) (E k) s) ks threads) (hs : I s)
    {as : List α} (hrun : (sideBySide σ threads).Yields s as s') :
    I s' ∧ Terms.Moves terms ks s s' ∧ List.Forall₂ (fun k a => P k a s') ks as := by
  obtain ⟨hcrew, hinv, hmoves⟩ := Crew.safe_run (σ := σ) hagree hsafe hs
  obtain ⟨houtcome, rfl⟩ := Prod.mk.inj
    (show ((Crew.run σ (threads.map ({ thread := · })) s).1.outcome σ.blame,
      (Crew.run σ (threads.map ({ thread := · })) s).2) = (.ok as, s') from hrun)
  obtain ⟨hnone, rfl⟩ := Crew.of_outcome_eq_ok houtcome
  exact ⟨hinv, hmoves, hcrew.results hagree.invariant hinv (Crew.results_run hnone)⟩

/-- If a failure is reported, then that of one of the threads. -/
theorem fails_sideBySide (hagree : Terms.Agree terms I ks)
    (hsafe : List.Forall₂ (fun k t => t.Safe (terms k) (P k) (E k) s) ks threads) (hs : I s)
    {e : Failure} (hrun : (sideBySide σ threads).Fails s e s') :
    I s' ∧ Terms.Moves terms ks s s' ∧ ∃ k ∈ ks, E k e s' := by
  obtain ⟨hcrew, hinv, hmoves⟩ := Crew.safe_run (σ := σ) hagree hsafe hs
  obtain ⟨houtcome, rfl⟩ := Prod.mk.inj
    (show ((Crew.run σ (threads.map ({ thread := · })) s).1.outcome σ.blame,
      (Crew.run σ (threads.map ({ thread := · })) s).2) = (.error e, s') from hrun)
  obtain ⟨w, hw, he⟩ := Crew.exists_of_outcome_eq_error houtcome
  exact ⟨hinv, hmoves, hcrew.failure hagree.invariant hinv hw he⟩

/-- Any thread may be the one that starts, and that is blamed. Then its failure is reported if it
fails. -/
theorem blamed_sideBySide (hagree : Terms.Agree terms I ks)
    (hsafe : List.Forall₂ (fun k t => t.Safe (terms k) (P k) (E k) s) ks threads) (hs : I s)
    {i : Nat} (hk : ks[i]? = some k) :
    ∃ s', I s' ∧ ((∃ a, P k a s') ∨
      ∃ e, (sideBySide (.blaming i) threads).Fails s e s' ∧ E k e s') := by
  obtain ⟨hcrew, hinv, -⟩ := Crew.safe_run (σ := .blaming i) hagree hsafe hs
  have hi : i < (threads.map ({ thread := · }) : Crew α).length := by
    rw [List.length_map, ← hsafe.length_eq]
    exact (List.getElem?_eq_some_iff.mp hk).1
  -- its turn has started the thread, so winding up takes it to its end
  obtain ⟨w₀, hw₀, hstarted⟩ := Crew.started_turn hi s
  obtain ⟨w, hw, hended⟩ := Crew.ended_windUp hw₀ hstarted
    ((Crew.turn i (threads.map ({ thread := · })) s).1.any (·.failure?.isSome))
    (Crew.turn i (threads.map ({ thread := · })) s).2
  have hthread := hcrew.of_getElem? hk hw
  refine ⟨_, hinv, ?_⟩
  rcases hended with hfailure | hresult
  · -- it is blamed, so no other failure is reported in place of its own
    obtain ⟨e, he⟩ := Option.isSome_iff_exists.mp hfailure
    rw [Crew.failure?_eq_some.mp he] at hthread
    refine .inr ⟨e, Prod.ext ?_ rfl, hthread _ ((terms k).refl _) (hagree.invariant k ▸ hinv)⟩
    show (Crew.run (.blaming i) _ s).1.outcome i = .error e
    unfold Crew.outcome
    rw [show (Crew.run (.blaming i) _ s).1[i]? = some w from hw, Option.bind_some, he]
    rfl
  · obtain ⟨a, ha⟩ := Option.isSome_iff_exists.mp hresult
    rw [Crew.result?_eq_some.mp ha] at hthread
    exact .inl ⟨a, hthread _ ((terms k).refl _) (hagree.invariant k ▸ hinv)⟩

end

end ClrImage
