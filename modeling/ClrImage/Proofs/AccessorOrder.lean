import ClrImage.Proofs.Calls
import ClrImage.Proofs.Repetition
import ClrImage.Proofs.Reports
import ClrImage.Proofs.Wiring

/-!
# Accessors and the order of types

A type may have an accessor that is a method of another type. Whether the accessor is found depends
on what has become of that other type by then. This module follows a build from its beginning: what
is linked behind some types belongs to one of them, and a type with linked members has been
published, behind those that its accessors come from.

- `Setup.HasPublished`: the build has given a type its members.
- `WiredInOrder`: the invariant of the pass over the members. A step for a type preserves it
  (`WiredInOrder.step`).
- `wiredInOrder_run`: it holds at the end of every build, however the build ends.
- `accessors_wired_in_order`: which accessor fails, and where the others come from.
-/

namespace ClrImage

/-! ## Linked members -/

/-- All members of the type are linked. -/
def BuildState.LinksAll (s : BuildState) (p : TypePlan) : Prop :=
  ∀ (m : MemberSort), ∀ token ∈ m.tokens p, (s.linked? m token).isSome = true

/-- A member of the type is linked. -/
def BuildState.LinksSome (s : BuildState) (p : TypePlan) : Prop :=
  ∃ m : MemberSort, ∃ token ∈ m.tokens p, (s.linked? m token).isSome = true

/-- Whatever member is linked, it stays so. -/
def KeepsLinked (s s' : BuildState) : Prop :=
  ∀ m token, (s.linked? m token).isSome = true → (s'.linked? m token).isSome = true

theorem BuildState.Extends.keepsLinked {s s' : BuildState} (h : s.Extends s') :
    KeepsLinked s s' := by
  intro m token hsome
  obtain ⟨g, hlinked⟩ := Option.isSome_iff_exists.mp hsome
  rw [h.linked? hlinked]
  rfl

theorem TypePlan.MembersLinked.linksAll {p : TypePlan} {s : BuildState}
    (h : p.MembersLinked s.links) : s.LinksAll p := by
  intro m
  cases m with
  | field => exact h.fields
  | method => exact h.methods
  | property => exact h.properties
  | event => exact h.events

/-- In the build, the type has not been skipped, its population has succeeded, and all its members
are linked. -/
structure Setup.HasPublished (setup : Setup) (p : TypePlan) (s : BuildState) : Prop where
  notSkipped : ¬ setup.Skips p
  populated : ∃ s₁ s₂, setup.Reaches p s₁ ∧ (setup.populateType p).Yields s₁ () s₂
  linked : s.LinksAll p

theorem Setup.HasPublished.mono {setup : Setup} {p : TypePlan} {s s' : BuildState}
    (h : setup.HasPublished p s) (hkeeps : KeepsLinked s s') : setup.HasPublished p s' :=
  ⟨h.notSkipped, h.populated, fun m token htoken => hkeeps m token (h.linked m token htoken)⟩

/-- The accessors of the type are its own methods, or those of types before it that the build has
published. -/
def Setup.AccessorsFrom (setup : Setup) (before : List TypePlan) (p : TypePlan) (s : BuildState) :
    Prop :=
  ∀ x ∈ p.accessorUses, x.method ∈ MemberSort.method.tokens p ∨
    ∃ q ∈ before, x.method ∈ MemberSort.method.tokens q ∧ setup.HasPublished q s

theorem Setup.AccessorsFrom.mono {setup : Setup} {before : List TypePlan} {p : TypePlan}
    {s s' : BuildState} (h : setup.AccessorsFrom before p s) (hkeeps : KeepsLinked s s') :
    setup.AccessorsFrom before p s' := by
  intro x hx
  refine (h x hx).imp_right ?_
  rintro ⟨q, hq, hmethod, hpublished⟩
  exact ⟨q, hq, hmethod, hpublished.mono hkeeps⟩

/-- Types of a build that come one before the other have no member token in common. -/
theorem Setup.DistinctTokens.not_mem_later {setup : Setup} (hdistinct : setup.DistinctTokens)
    {earlier later : List TypePlan} {p q : TypePlan} (hall : setup.types = earlier ++ p :: later)
    (hq : q ∈ earlier) {m : MemberSort} {token : Token} (htoken : token ∈ m.tokens q) :
    token ∉ m.tokens p := by
  intro hmem
  have hnodup := hdistinct.nodup
  rw [hall] at hnodup
  have hne : q ≠ p := fun heq => ne_of_nodup_map hnodup (.inl hq) (by rw [heq])
  exact hdistinct.disjoint (by simp [hall]) (by simp [hall, hq]) hne (MemberSort.mem_tokens hmem)
    (MemberSort.mem_tokens htoken)

/-! ## Single types -/

section Population

variable {setup : Setup} {p : TypePlan} {e : Failure} {s s' : BuildState}

/-- A type that gets its members has been published. -/
theorem hasPublished_of_yields (hreach : setup.Reaches p s) (hskip : ¬ setup.Skips p)
    (hrun : (setup.populateType p).Yields s () s') : setup.HasPublished p s' where
  notSkipped := hskip
  populated := ⟨s, s', hreach, hrun⟩
  linked := by
    rw [Setup.populateType_eq hskip] at hrun
    obtain ⟨h, t, staged, s₁, s₂, -, -, hstage, hpublish, hnotice⟩ :=
      yields_populate (Setup.yields_inContext.mp hrun)
    have hlinks : s'.links = s₂.links := ((keeps_noticePopulated h).of_yields hnotice).links_eq
    exact (TypePlan.MembersLinked.of_published hstage (yields_publish hpublish)
      (hlinks ▸ .refl _)).linksAll

variable (hdistinct : p.DistinctTokens)
include hdistinct

/-- A type with distinct tokens whose population fails has no member linked by it. -/
theorem linked?_of_fails_populateType (hrun : (setup.populateType p).Fails s e s')
    (m : MemberSort) (token : Token) : s'.linked? m token = s.linked? m token := by
  unfold Setup.populateType at hrun
  split at hrun
  · cases Build.fails_modify.mp hrun
  · obtain ⟨source, s₁, hfail, -, rfl⟩ := Setup.fails_inContext.mp hrun
    have hsame : SameMembers s s₁ :=
      (sameMembers_of_fails_iff hfail).mpr fun hcut => hcut.repeated hdistinct
    exact hsame.linked? m token

/-- In the pass, a type gets its members, or no member is linked. -/
theorem populateOrRecord_cases (hrun : (setup.populateOrRecord p).Yields s () s') :
    (¬ setup.Skips p ∧ (setup.populateType p).Yields s () s') ∨
      ∀ m token, s'.linked? m token = s.linked? m token := by
  rcases yields_populateOrRecord hrun with hyields | ⟨e, s₁, hfails, rfl⟩
  · by_cases hskip : setup.Skips p
    · right
      intro m token
      have hskipped : setup.populateType p = Build.notice (.skippingMembers p.name) := if_pos hskip
      rw [hskipped] at hyields
      obtain rfl := Build.yields_modify.mp hyields
      rfl
    · exact .inl ⟨hskip, hyields⟩
  · exact .inr fun m token => linked?_of_fails_populateType hdistinct hfails m token

/-- Where the pass ends at a type, no member of it is linked. -/
theorem linked?_of_fails_populateOrRecord (hrun : (setup.populateOrRecord p).Fails s e s')
    (m : MemberSort) (token : Token) : s'.linked? m token = s.linked? m token := by
  unfold Setup.populateOrRecord at hrun
  split at hrun
  · unfold Build.Fails at hrun
    rw [Build.outcome_tryCatch] at hrun
    split at hrun <;> cases hrun
  · exact linked?_of_fails_populateType hdistinct hrun m token

end Population

/-! ## The types of a pass -/

/-- Behind the types `done` of a build, linked members belong to these types. Each type with a
linked member has been published, and its accessors come from itself or from before. -/
structure WiredInOrder (setup : Setup) (done : List TypePlan) (s : BuildState) : Prop where
  planned : ∀ m token, (s.linked? m token).isSome = true → ∃ p ∈ done, token ∈ m.tokens p
  published : ∀ before p behind, done = before ++ p :: behind → s.LinksSome p →
    setup.HasPublished p s ∧ setup.AccessorsFrom before p s

namespace WiredInOrder

variable {setup : Setup} {done todo : List TypePlan} {p : TypePlan} {e : Failure}
  {s s' : BuildState}

/-- Nothing is linked before the first type. -/
theorem start (hs : ∀ m token, s.linked? m token = none) : WiredInOrder setup [] s where
  planned m token hsome := by
    rw [hs m token] at hsome
    cases hsome
  published before p behind hsplit := by simp at hsplit

/-- The invariant is about linked members only. -/
theorem of_linked?_eq (hs : WiredInOrder setup done s)
    (h : ∀ m token, s'.linked? m token = s.linked? m token) : WiredInOrder setup done s' where
  planned m token hsome := hs.planned m token (h m token ▸ hsome)
  published before p behind hsplit := by
    rintro ⟨m, token, htoken, hsome⟩
    have hkeeps : KeepsLinked s s' := fun m token hsome => by rwa [h m token]
    obtain ⟨hpublished, haccessors⟩ :=
      hs.published before p behind hsplit ⟨m, token, htoken, h m token ▸ hsome⟩
    exact ⟨hpublished.mono hkeeps, haccessors.mono hkeeps⟩

section Step

variable (hs : WiredInOrder setup done s)
include hs

/-- The accessors of a type that gets its members now are its own methods, or those of types that
have been published. -/
theorem accessorsFrom_next (hskip : ¬ setup.Skips p)
    (hrun : (setup.populateType p).Yields s () s') : setup.AccessorsFrom done p s := by
  intro x hx
  have hfound : p.finds s.links x.method = true := by
    have hnone := List.find?_eq_none.mp (Setup.dangling_of_yields hskip hrun) x hx
    simpa using hnone
  rcases TypePlan.finds_iff.mp hfound with hown | hlinked
  · exact .inl hown
  · have hsome : (s.linked? .method x.method).isSome = true := hlinked
    obtain ⟨q, hq, hmethod⟩ := hs.planned .method x.method hsome
    obtain ⟨before, behind, hsplit⟩ := List.append_of_mem hq
    have hpublished := (hs.published before q behind hsplit ⟨.method, x.method, hmethod, hsome⟩).1
    exact .inr ⟨q, hq, hmethod, hpublished⟩

variable (hdistinct : setup.DistinctTokens) (hall : setup.types = done ++ p :: todo)
include hdistinct hall

/-- No member of the type that comes next has been linked so far. -/
theorem not_linksSome_next : ¬ s.LinksSome p := by
  rintro ⟨m, token, htoken, hsome⟩
  obtain ⟨q, hq, hmem⟩ := hs.planned m token hsome
  exact hdistinct.not_mem_later hall hq hmem htoken

/-- The next type has been published if it has a linked member now. -/
theorem published_next (hreach : (setup.upTo done).Yields (.initial setup.config) () s)
    (hrun : (setup.populateOrRecord p).Yields s () s') (hsome : s'.LinksSome p) :
    setup.HasPublished p s' ∧ setup.AccessorsFrom done p s := by
  have hp : p ∈ setup.types := by simp [hall]
  rcases populateOrRecord_cases (hdistinct.ofType hp) hrun with ⟨hskip, hyields⟩ | hsame
  · exact ⟨hasPublished_of_yields ⟨_, _, hall, hreach⟩ hskip hyields,
      hs.accessorsFrom_next hskip hyields⟩
  · obtain ⟨m, token, htoken, hlinked⟩ := hsome
    rw [hsame m token] at hlinked
    exact absurd ⟨m, token, htoken, hlinked⟩ (hs.not_linksSome_next hdistinct hall)

/-- Whether or not the next type gets its members, the invariant holds behind it. -/
theorem step (hreach : (setup.upTo done).Yields (.initial setup.config) () s)
    (hrun : (setup.populateOrRecord p).Yields s () s') : WiredInOrder setup (done ++ [p]) s' := by
  have hkeeps : KeepsLinked s s' :=
    ((keeps_populateOrRecord_of_allows (R := Later) p).of_yields hrun).toExtends.keepsLinked
  have hwithin : LinksWithin p s s' := (LinksWithin.populateOrRecord setup p).of_yields hrun
  constructor
  case planned =>
    intro m token hsome
    by_cases hown : token ∈ m.tokens p
    · exact ⟨p, by simp, hown⟩
    · rw [hwithin m token hown] at hsome
      obtain ⟨q, hq, hmem⟩ := hs.planned m token hsome
      exact ⟨q, List.mem_append_left _ hq, hmem⟩
  case published =>
    intro before q behind hsplit hsome
    rcases List.eq_nil_or_concat behind with rfl | ⟨rest, last, rfl⟩
    · obtain ⟨rfl, heq⟩ := List.append_inj' hsplit rfl
      obtain rfl := (List.cons.inj heq).1
      obtain ⟨hpublished, haccessors⟩ := hs.published_next hdistinct hall hreach hrun hsome
      exact ⟨hpublished, haccessors.mono hkeeps⟩
    · -- no member of a type before the next one is linked now
      have hdone : done = before ++ q :: rest := by
        have hconcat : done ++ [p] = (before ++ q :: rest) ++ [last] := by
          rw [hsplit]
          simp
        exact (List.append_inj' hconcat rfl).1
      obtain ⟨m, token, htoken, hlinked⟩ := hsome
      rw [hwithin m token (hdistinct.not_mem_later hall (by simp [hdone]) htoken)] at hlinked
      obtain ⟨hpublished, haccessors⟩ :=
        hs.published before q rest hdone ⟨m, token, htoken, hlinked⟩
      exact ⟨hpublished.mono hkeeps, haccessors.mono hkeeps⟩

end Step

end WiredInOrder

/-! ## The frame -/

/-- No member is linked. -/
def BuildState.Memberless (s : BuildState) : Prop := ∀ m token, s.linked? m token = none

namespace BuildState.Memberless

variable {setup : Setup}

theorem keeps_of_sameDirectory {α : Type} {step : Build α}
    (h : Build.Keeps SameDirectory step) :
    Build.Keeps (Build.Preserves Memberless) step :=
  h.mono fun _ _ hsame hs m token => (hsame.linked? m token).trans (hs m token)

/-- A declaration links a type and nothing else. -/
theorem keeps_declareType (p : TypePlan) :
    Build.Keeps (Build.Preserves Memberless) (Build.declareType p) := by
  intro s hs
  unfold Build.declareType
  rw [Build.outcome_bind, Build.outcome_get]
  dsimp only
  rw [Build.outcome_bind, Build.outcome_get]
  dsimp only
  rw [Build.outcome_bind, Build.outcome_liftExcept]
  rcases hlink : s.links.linkType p.token s.store.types.next with e | links
  · exact hs
  · obtain ⟨types, -, rfl⟩ := map_eq_ok.mp hlink
    intro m token
    cases m with
    | field => exact hs .field token
    | method => exact hs .method token
    | property => exact hs .property token
    | event => exact hs .event token

theorem keeps_wireDeclaring (p : TypePlan) :
    Build.Keeps (Build.Preserves Memberless) (setup.wireDeclaring p) := by
  unfold Setup.wireDeclaring
  split
  · exact Build.Keeps.pure ()
  split
  · exact Build.Keeps.throw _
  refine Build.Keeps.bind Build.Keeps.get fun _ => ?_
  split
  · exact Build.Keeps.throw _
  · exact Build.Keeps.bind (keeps_managed p) fun _ => Build.Keeps.bind Build.Keeps.get fun _ =>
      Build.Keeps.bind (Build.Keeps.liftExcept _) fun _ => Build.Keeps.modify fun _ => id

/-- Before the members of the types, none is linked, whatever becomes of the passes. -/
theorem keeps_frame : Build.Keeps (Build.Preserves Memberless) setup.frame := by
  have hnotice (n : Notice) : Build.Keeps (Build.Preserves Memberless) (Build.notice n) :=
    keeps_of_sameDirectory (keeps_notice_sameDirectory n)
  have hcontext {step : Build Unit} (p : TypePlan)
      (h : Build.Keeps (Build.Preserves Memberless) step) :
      Build.Keeps (Build.Preserves Memberless) (setup.inContext .declare p step) :=
    Setup.keeps_inContext (fun _ => hnotice _) h
  unfold Setup.frame Setup.declareTypes
  refine Build.Keeps.bind (hnotice _) fun _ => Build.Keeps.bind ?_ fun _ => ?_
  · refine Build.Keeps.bind (Build.Keeps.forM (fun p => hcontext p (keeps_declareType p)) _)
      fun _ => ?_
    refine Build.Keeps.bind (Build.Keeps.forM (fun p => hcontext p (keeps_wireDeclaring p)) _)
      fun _ => ?_
    exact Build.Keeps.bind Build.Keeps.get fun _ => hnotice _
  · exact keeps_of_sameDirectory (keeps_perform_sameDirectory .all)

theorem outcome_frame :
    (setup.frame.outcome (.initial setup.config)).2.Memberless := by
  refine keeps_frame (.initial setup.config) fun m token => ?_
  cases m <;> exact WriteOnce.get?_empty token

end BuildState.Memberless

/-! ## Whole builds -/

/-- At its end a build tells something, and links nothing any more. -/
theorem links_outcome_finish (setup : Setup) (s : BuildState) :
    (setup.finish.outcome s).2.links =
      (Build.outcome (setup.types.forM setup.populateOrRecord) (setup.opened s)).2.links := by
  have htell : (Build.notice (.populating setup.types.length setup.blueprint.methodCount
      setup.blueprint.module)).Yields s () (setup.opened s) := rfl
  unfold Setup.finish Setup.populateMembers
  rw [bind_assoc, Build.outcome_bind_of_yields htell, bind_assoc]
  rcases hpass : Build.outcome (setup.types.forM setup.populateOrRecord) (setup.opened s) with
    ⟨e | u, s₁⟩
  · rw [Build.outcome_bind_of_fails hpass]
  · rw [Build.outcome_bind_of_yields hpass]
    rfl

/-- The pass over the members comes to its end, or ends at a type. Either way the invariant holds of
the types before. -/
theorem wiredInOrder_pass {setup : Setup} (hdistinct : setup.DistinctTokens) {s₀ : BuildState}
    (hframe : setup.frame.Yields (.initial setup.config) () s₀) :
    ∃ done todo, setup.types = done ++ todo ∧ WiredInOrder setup done
      (Build.outcome (setup.types.forM setup.populateOrRecord) (setup.opened s₀)).2 := by
  have hbare : s₀.Memberless := hframe.outcome_snd ▸ BuildState.Memberless.outcome_frame
  have hstart : (setup.upTo []).Yields (.initial setup.config) () (setup.opened s₀) ∧
      WiredInOrder setup [] (setup.opened s₀) :=
    ⟨(Setup.yields_upTo_iff hframe).mpr (Build.yields_forM_nil.mpr rfl), .start hbare⟩
  have hstep (done : List TypePlan) (p : TypePlan) (todo : List TypePlan) (s s' : BuildState)
      (hall : setup.types = done ++ p :: todo)
      (hs : (setup.upTo done).Yields (.initial setup.config) () s ∧ WiredInOrder setup done s)
      (hrun : (setup.populateOrRecord p).Yields s () s') :
      (setup.upTo (done ++ [p])).Yields (.initial setup.config) () s' ∧
        WiredInOrder setup (done ++ [p]) s' := by
    refine ⟨(Setup.yields_upTo_iff hframe).mpr ?_, hs.2.step hdistinct hall hs.1 hrun⟩
    refine Build.yields_forM_append.mpr ⟨s, (Setup.yields_upTo_iff hframe).mp hs.1, ?_⟩
    exact Build.yields_forM_cons.mpr ⟨s', hrun, Build.yields_forM_nil.mpr rfl⟩
  rcases Build.yields_or_fails (setup.types.forM setup.populateOrRecord) (setup.opened s₀) with
    ⟨_, s₁, hpass⟩ | ⟨e, s₁, hpass⟩ <;> rw [hpass.outcome_snd]
  · have hend := Build.forM_induction (fun done _ s =>
      (setup.upTo done).Yields (.initial setup.config) () s ∧ WiredInOrder setup done s) hstart
      hstep hpass
    exact ⟨setup.types, [], (List.append_nil _).symm, hend.2⟩
  · obtain ⟨done, p, todo, s₂, hall, hs, hfail⟩ := Build.exists_of_fails_forM (fun done _ s =>
      (setup.upTo done).Yields (.initial setup.config) () s ∧ WiredInOrder setup done s) hstart
      hstep hpass
    have hp : p ∈ setup.types := by simp [hall]
    exact ⟨done, p :: todo, hall,
      hs.2.of_linked?_eq (linked?_of_fails_populateOrRecord (hdistinct.ofType hp) hfail)⟩

/-- The invariant holds of the first types of a build in the state that the build leaves. -/
theorem wiredInOrder_run {setup : Setup} (hdistinct : setup.DistinctTokens) :
    ∃ done todo, setup.types = done ++ todo ∧ WiredInOrder setup done setup.run.2 := by
  have hrun : setup.run.2 =
      ((setup.frame >>= fun _ => setup.finish).outcome (.initial setup.config)).2 := by
    rw [← Setup.build_eq]
    rfl
  rcases Build.yields_or_fails setup.frame (.initial setup.config) with
    ⟨_, s₀, hframe⟩ | ⟨e, s₀, hframe⟩
  · obtain ⟨done, todo, hall, hs⟩ := wiredInOrder_pass hdistinct hframe
    refine ⟨done, todo, hall, hs.of_linked?_eq fun m token => ?_⟩
    rw [hrun, Build.outcome_bind_of_yields hframe]
    unfold BuildState.linked?
    rw [links_outcome_finish]
  · have hbare : setup.run.2.Memberless := by
      rw [hrun, Build.outcome_bind_of_fails hframe, ← hframe.outcome_snd]
      exact BuildState.Memberless.outcome_frame
    exact ⟨[], setup.types, rfl, .start hbare⟩

/-- Types with a member token in common are the same. -/
theorem Setup.DistinctTokens.eq_of_mem {setup : Setup} (hdistinct : setup.DistinctTokens)
    {p q : TypePlan} (hp : p ∈ setup.types) (hq : q ∈ setup.types) {m : MemberSort} {token : Token}
    (hmem : token ∈ m.tokens p) (hmem' : token ∈ m.tokens q) : q = p := by
  by_contra hne
  exact hdistinct.disjoint hp hq hne (MemberSort.mem_tokens hmem) (MemberSort.mem_tokens hmem')

/-- A type from which a linked member has an accessor comes earlier and has been published. -/
theorem published_earlier {setup : Setup} (hdistinct : setup.DistinctTokens) {p q : TypePlan}
    (hp : p ∈ setup.types) (hq : q ∈ setup.types) (hne : q ≠ p) {x : AccessorUse}
    (hx : x ∈ p.accessorUses) (hlinked : (setup.run.2.linked? x.sort x.token).isSome = true)
    (hmethod : x.method ∈ MemberSort.method.tokens q) :
    ∃ earlier between later, setup.types = earlier ++ q :: (between ++ p :: later) ∧
      setup.HasPublished q setup.run.2 := by
  obtain ⟨done, todo, hall, hs⟩ := wiredInOrder_run hdistinct
  have hdone {r : TypePlan} (hr : r ∈ done) : r ∈ setup.types := by simp [hall, hr]
  obtain ⟨r, hr, htoken⟩ := hs.planned x.sort x.token hlinked
  obtain rfl := hdistinct.eq_of_mem hp (hdone hr) (TypePlan.token_mem_of_use hx) htoken
  obtain ⟨before, behind, hsplit⟩ := List.append_of_mem hr
  obtain ⟨-, haccessors⟩ := hs.published before r behind hsplit ⟨x.sort, x.token, htoken, hlinked⟩
  rcases haccessors x hx with hown | ⟨q', hq', hmethod', hpublished⟩
  · exact absurd (hdistinct.eq_of_mem hp hq hown hmethod) hne
  · have hmem : q' ∈ done := by simp [hsplit, hq']
    obtain rfl := hdistinct.eq_of_mem hq (hdone hmem) hmethod hmethod'
    obtain ⟨earlier, between, hbefore⟩ := List.append_of_mem hq'
    refine ⟨earlier, between, behind ++ todo, ?_, hpublished⟩
    rw [hall, hsplit, hbefore]
    simp

/-- **Accessors fail exactly over methods that have not been converted.**

A population that fails over an accessor, in any state, names the first one in order whose method is
neither planned by the type nor linked, with its member below the name of the type. A type that has
such an accessor never gets its members. So in a build of plans with distinct tokens, however it
ends, a published member has accessors of another type only if that type comes earlier and has been
published. -/
theorem accessors_wired_in_order (setup : Setup) :
    (setup.resolver.SparesAccessors → ∀ p, ¬ setup.Skips p →
      ∀ s e s', (setup.populateType p).Fails s e s' →
      ∀ owner accessor token, e.rootCause = .missingLink owner accessor token →
        ∃ type t x, s.links.types.get? p.token = some type ∧ s.store.types.get? type = some t ∧
          p.dangling? s.links = some x ∧ owner = s!"{s.store.fullName t}::{x.member}" ∧
          accessor = x.accessor.name ∧ token = x.method ∧ s'.links = s.links) ∧
    (∀ p, ¬ setup.Skips p → ∀ s, ∀ x ∈ p.accessorUses, p.finds s.links x.method = false →
      ∃ e s', (setup.populateType p).Fails s e s') ∧
    (setup.DistinctTokens → ∀ p ∈ setup.types, ∀ x ∈ p.accessorUses,
      (setup.run.2.linked? x.sort x.token).isSome = true →
      ∀ q ∈ setup.types, q ≠ p → x.method ∈ MemberSort.method.tokens q →
        ∃ earlier between later, setup.types = earlier ++ q :: (between ++ p :: later) ∧
          setup.HasPublished q setup.run.2) := by
  refine ⟨?first, ?never, ?earlier⟩
  case first =>
    intro hresolver p hskip s e s' hrun owner accessor token hroot
    exact Setup.dangling_of_fails hresolver hskip hrun hroot
  case never =>
    intro p hskip s x hx hmissing
    rcases Build.yields_or_fails (setup.populateType p) s with ⟨_, s', hrun⟩ | hfails
    · have hfound := List.find?_eq_none.mp (Setup.dangling_of_yields hskip hrun) x hx
      rw [hmissing] at hfound
      exact absurd rfl hfound
    · exact hfails
  case earlier =>
    intro hdistinct p hp x hx hlinked q hq hne hmethod
    exact published_earlier hdistinct hp hq hne hx hlinked hmethod

/-- A type with a method. -/
def lens : TypePlan where
  token := ⟨0x02000001⟩
  space := "Observatory"
  name := "Lens"
  flags := .empty
  flavor := .classType
  module := "observatory"
  methods :=
    #[{ token := ⟨0x06000001⟩, name := "get_Focus", flags := .empty, implFlags := .empty
        returnType := TypeRef.primitive .i4 }]

/-- A type with a property that is read through the method. -/
def telescope : TypePlan where
  token := ⟨0x02000002⟩
  space := "Observatory"
  name := "Telescope"
  flags := .empty
  flavor := .classType
  module := "observatory"
  properties :=
    #[{ token := ⟨0x17000001⟩, name := "Focus", flags := .empty, type := TypeRef.primitive .i4
        getter := lens.methods[0]? }]

/-- A type with an event of which the second accessor is a method of no type. -/
def dome : TypePlan where
  token := ⟨0x02000003⟩
  space := "Observatory"
  name := "Dome"
  flags := .empty
  flavor := .classType
  module := "observatory"
  events :=
    #[{ token := ⟨0x14000001⟩, name := "Opened", flags := .empty, type := TypeRef.primitive .object
        add := lens.methods[0]?
        remove := some { token := ⟨0x06000009⟩, name := "remove_Opened", flags := .empty
                         implFlags := .empty, returnType := TypeRef.primitive .void } }]

def observatory : Setup where
  blueprint := .ofTypes "observatory" #[lens, telescope, dome]
  config := .lenient

theorem accessors_wired_in_order_observatory :
    (∃ s e s', observatory.Reaches dome s ∧ (observatory.populateType dome).Fails s e s' ∧
      e.rootCause = .missingLink "Observatory.Dome::Opened" "remove" ⟨0x06000009⟩ ∧
      ∃ x, dome.dangling? s.links = some x ∧ x.accessor.name = "remove") ∧
    (∃ e s', (observatory.populateType dome).Fails (.initial observatory.config) e s') ∧
    (observatory.run.2.linked? .property ⟨0x17000001⟩).isSome = true ∧
    ∃ earlier between later,
      observatory.types = earlier ++ lens :: (between ++ telescope :: later) ∧
      observatory.HasPublished lens observatory.run.2 := by
  obtain ⟨hfirst, hnever, hearlier⟩ := accessors_wired_in_order observatory
  have htypes : observatory.types = [lens, telescope, dome] := rfl
  have hskip : ¬ observatory.Skips dome := by
    unfold Setup.Skips
    decide
  have hlinked : (observatory.run.2.linked? .property ⟨0x17000001⟩).isSome = true := by
    decide +kernel
  refine ⟨?_, ?_, hlinked, ?_⟩
  · have hreach := Build.yields_of_isOk (observatory.upTo [lens, telescope])
      (.initial observatory.config) (by decide +kernel)
    obtain ⟨e, hfails⟩ := Build.fails_of_not_isOk (observatory.populateType dome)
      ((observatory.upTo [lens, telescope]).outcome (.initial observatory.config)).2
      (by decide +kernel)
    have hcause : (match ((observatory.populateType dome).outcome
          ((observatory.upTo [lens, telescope]).outcome (.initial observatory.config)).2).1 with
        | .ok _ => none
        | .error e => some e.rootCause) =
          some (.missingLink "Observatory.Dome::Opened" "remove" ⟨0x06000009⟩) := by
      decide +kernel
    rw [show (observatory.populateType dome).outcome _ = _ from hfails] at hcause
    have hroot := Option.some.inj hcause
    obtain ⟨_, _, x, -, -, hx, -, hname, -⟩ :=
      hfirst Resolver.sparesAccessors_default dome hskip _ e _ hfails _ _ _ hroot
    exact ⟨_, e, _, ⟨[lens, telescope], [], rfl, hreach⟩, hfails, hroot, x, hx, hname.symm⟩
  · -- where nothing has been built, not even the first accessor is found
    exact hnever dome hskip (.initial observatory.config)
      (AccessorUse.ofMember .event ⟨0x14000001⟩ "Opened" (.add, lens.methods[0])) (by decide) rfl
  · have hne : lens ≠ telescope := fun heq => absurd (congrArg TypePlan.token heq) (by decide)
    exact hearlier (by decide +kernel) telescope (by simp [htypes])
      (AccessorUse.ofMember .property ⟨0x17000001⟩ "Focus" (.getter, lens.methods[0])) (by decide)
      hlinked lens (by simp [htypes]) hne (by decide)

end ClrImage
