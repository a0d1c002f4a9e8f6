import ClrImage.Proofs.Audit

/-!
# Lists and owners

Which containers a parameter belongs to is recorded twice: every container lists its parameters, and
every parameter records its owners. The two records are written by different steps. While the
members of a type are made, a method that is not linked yet owns parameters already.

- `BuildState.Lists`: the containers that list a parameter, among them methods that are staged.
- `Enlists`: what registering the parameters of a container does to lists and owners.
- `Relists`, `MakesMethod`: what the containers do with the parameters that were enlisted for them.
- `Mutual`: containers list what they own. Every step that succeeds preserves it.
- `Accounted`: lists, owners and the notices of sharing in an image.
- `lists_and_owners_agree`: every image without failures is accounted for.
-/

namespace ClrImage

/-! ## Containers -/

/-- The method stands under the token, linked or staged. -/
def BuildState.Holds (s : BuildState) (staged : List (Token × MethodHandle)) (token : Token)
    (h : MethodHandle) : Prop :=
  s.links.methods.get? token = some h ∨ (token, h) ∈ staged

/-- A container lists a parameter. -/
def BuildState.Lists (s : BuildState) (staged : List (Token × MethodHandle)) :
    GenericOwner → GenericHandle → Prop
  | .type token, g => ∃ h listed, s.listing h = some (token, listed) ∧ g ∈ listed
  | .method token, g => ∃ h d, s.Holds staged token h ∧ s.store.methods.get? h = some d ∧
      g ∈ d.generics

variable {setup : Setup} {staged : List (Token × MethodHandle)} {s s₁ s₂ s' : BuildState}

theorem SameListings.holds_iff (h : SameListings s s') {token : Token} {m : MethodHandle} :
    s'.Holds staged token m ↔ s.Holds staged token m := by
  unfold BuildState.Holds
  rw [h.linkedMethods]

theorem SameListings.lists_iff (h : SameListings s s') {o : GenericOwner} {g : GenericHandle} :
    s'.Lists staged o g ↔ s.Lists staged o g := by
  cases o with
  | type token => simp only [BuildState.Lists, h.listing]
  | method token => simp only [BuildState.Lists, h.holds_iff, h.methods]

/-! ## Registering the parameters of a container -/

/-- The container owns what it lists now, nothing else about owners has changed, and no other list
has. -/
structure Enlists (owner : GenericOwner) (listed : Array GenericHandle) (s s' : BuildState) : Prop
    extends SameListings s s' where
  once : listed.toList.Nodup
  owned : ∀ o g, o ∈ s'.ownersOf g ↔ o ∈ s.ownersOf g ∨ (o = owner ∧ g ∈ listed)

theorem Enlists.sameLists {owner : GenericOwner} {listed : Array GenericHandle}
    (h : Enlists owner listed s s₁) (hsame : SameLists s₁ s') : Enlists owner listed s s' where
  toSameListings := h.toSameListings.trans hsame.toSameListings
  once := h.once
  owned o g := by rw [hsame.ownersOf, h.owned]

/-- Registering the parameters of a container enlists them, if the container owned all that it
listed before. -/
theorem enlists_declareGenerics {owner : GenericOwner} {topLevel : Token}
    {listed : Array GenericHandle} {params : Array GenericPlan}
    {out : Array GenericHandle × Array PendingGeneric} (hclosed : s.RegistryClosed)
    (hlisted : ∀ g ∈ listed, owner ∈ s.ownersOf g) (honce : listed.toList.Nodup)
    (hrun : (Setup.declareGenerics owner topLevel listed params).Yields s out s') :
    Enlists owner out.1 s s' := by
  have hmem {g : GenericHandle} := mem_listed_declareGenerics hrun (h := g)
  obtain ⟨objects, pending, s₁, hdeclare, hregisters⟩ :=
    declareGenerics_registers owner topLevel listed params s
  have honly := hregisters.toOnlyGenerics
  obtain ⟨rfl, rfl⟩ := hdeclare.unique hrun
  refine ⟨⟨?_, ?_, ?_, ?_⟩, nodup_foldl_listOnce objects honce, fun o g => ?_⟩
  · unfold BuildState.listing
    rw [honly.types]
  · rw [honly.store]
  · rw [honly.links]
  · rw [honly.links]
  · rw [mem_ownersOf_declareGenerics hclosed hrun]
    constructor
    · rintro (hold | ⟨rfl, hkeyed⟩)
      · exact .inl hold
      · exact .inr ⟨rfl, hmem.mpr (.inr hkeyed)⟩
    · rintro (hold | ⟨rfl, hg⟩)
      · exact .inl hold
      · exact (hmem.mp hg).imp (hlisted g) fun hkeyed => ⟨rfl, hkeyed⟩

/-- The parameters of a method are enlisted before there is a method. -/
theorem enlists_makeMethodGenerics {site : MemberSite} {m : MethodPlan}
    {listed : Array GenericHandle} (hclosed : s.RegistryClosed)
    (hrun : (setup.makeMethodGenerics site m).Yields s listed s') :
    Enlists (.method m.token) listed s s' := by
  unfold Setup.makeMethodGenerics at hrun
  split at hrun
  next =>
    obtain ⟨rfl, rfl⟩ := Build.yields_pure.mp hrun
    exact ⟨⟨rfl, rfl, rfl, rfl⟩, .nil, by simp⟩
  next =>
    obtain ⟨⟨out, pending⟩, s₁, hdeclare, hrun⟩ := Build.yields_bind.mp hrun
    obtain ⟨_, s₂, hconstrain, hpure⟩ := Build.yields_bind.mp hrun
    obtain ⟨rfl, rfl⟩ := Build.yields_pure.mp hpure
    exact (enlists_declareGenerics hclosed (by simp) .nil hdeclare).sameLists
      ((keeps_constrainGenerics_sameLists _ _).of_yields hconstrain)

/-- A type lists what it owns now, and no other list has changed. -/
structure Relists (h : TypeHandle) (own : Token) (listed : Array GenericHandle)
    (s s' : BuildState) : Prop where
  once : listed.toList.Nodup
  owned : ∀ o g, o ∈ s'.ownersOf g ↔ o ∈ s.ownersOf g ∨ (o = .type own ∧ g ∈ listed)
  listing : ∀ k, s'.listing k = if k = h then some (own, listed) else s.listing k
  methods : s'.store.methods = s.store.methods
  linkedTypes : s'.links.types = s.links.types
  linkedMethods : s'.links.methods = s.links.methods

/-- A method is made that lists what it owns, and no other list has changed. -/
structure MakesMethod (d : MethodDef) (s s' : BuildState) : Prop where
  once : d.generics.toList.Nodup
  owned : ∀ o g, o ∈ s'.ownersOf g ↔ o ∈ s.ownersOf g ∨ (o = .method d.token ∧ g ∈ d.generics)
  listing : s'.listing = s.listing
  methods : ∀ k, s'.store.methods.get? k =
    if k = s.store.methods.next then some d else s.store.methods.get? k
  linkedTypes : s'.links.types = s.links.types
  linkedMethods : s'.links.methods = s.links.methods

namespace Relists

variable {h : TypeHandle} {own : Token} {old listed : Array GenericHandle}

/-- A type gets the list of what has been enlisted for it. -/
theorem of_enlists (hlisting : s.listing h = some (own, old))
    (henlists : Enlists (.type own) listed s s₁)
    (hrun : (Build.modifyType h fun t => { t with generics := listed }).Yields s₁ () s') :
    Relists h own listed s s' := by
  obtain rfl := Build.yields_modify.mp hrun
  refine ⟨henlists.once, henlists.owned, fun k => ?_, henlists.methods, henlists.linkedTypes,
    henlists.linkedMethods⟩
  rw [← henlists.listing]
  unfold BuildState.listing
  dsimp only
  rw [Arena.get?_modify]
  split
  next hk =>
    obtain ⟨t, ht, heq⟩ := Option.map_eq_some_iff.mp ((congrFun henlists.listing h).trans hlisting)
    rw [hk, ht, ← (Prod.mk.inj heq).1]
    rfl
  next => rfl

theorem holds_iff (hr : Relists h own listed s s') {token : Token} {m : MethodHandle} :
    s'.Holds staged token m ↔ s.Holds staged token m := by
  unfold BuildState.Holds
  rw [hr.linkedMethods]

/-- If the list has only grown, all that is listed further is what the type lists now. -/
theorem lists_iff (hr : Relists h own listed s s') (hlisting : s.listing h = some (own, old))
    (hgrows : ∀ g ∈ old, g ∈ listed) {o : GenericOwner} {g : GenericHandle} :
    s'.Lists staged o g ↔ s.Lists staged o g ∨ (o = .type own ∧ g ∈ listed) := by
  cases o with
  | method token => simp [BuildState.Lists, hr.holds_iff, hr.methods]
  | type token =>
    simp only [BuildState.Lists, GenericOwner.type.injEq]
    constructor
    · rintro ⟨k, listed', hk, hg⟩
      rw [hr.listing] at hk
      split at hk
      next =>
        obtain ⟨rfl, rfl⟩ := Prod.mk.inj (Option.some.inj hk)
        exact .inr ⟨rfl, hg⟩
      next => exact .inl ⟨k, listed', hk, hg⟩
    · rintro (⟨k, listed', hk, hg⟩ | ⟨rfl, hg⟩)
      · by_cases heq : k = h
        · subst heq
          obtain ⟨rfl, rfl⟩ := Prod.mk.inj (Option.some.inj (hk.symm.trans hlisting))
          exact ⟨k, listed, by rw [hr.listing, if_pos rfl], hgrows g hg⟩
        · exact ⟨k, listed', by rw [hr.listing, if_neg heq, hk], hg⟩
      · exact ⟨h, listed, by rw [hr.listing, if_pos rfl], hg⟩

end Relists

/-- A method is made with the parameters that have been enlisted for it. -/
theorem yields_makeMethod_enlists {site : MemberSite} {m : MethodPlan} {h : MethodHandle}
    (hclosed : s.RegistryClosed) (hrun : (setup.makeMethod site m).Yields s h s') :
    ∃ s₁ d, d.token = m.token ∧ Enlists (.method m.token) d.generics s s₁ ∧
      (Build.allocMethod d).Yields s₁ h s' := by
  unfold Setup.makeMethod at hrun
  obtain ⟨listed, s₁, hgenerics, hrun⟩ := Build.yields_bind.mp hrun
  obtain ⟨_, s₂, hreturn, hrun⟩ := Build.yields_bind.mp hrun
  obtain ⟨_, s₃, htypes, hrun⟩ := Build.yields_bind.mp hrun
  obtain ⟨_, s₄, hparams, halloc⟩ := Build.yields_bind.mp hrun
  rw [Build.yields_get_bind] at halloc
  have hreturn : SameLists s₁ s₂ := (keeps_resolve _ _).of_yields hreturn
  have htypes : SameLists s₂ s₃ :=
    (Build.Keeps.mapM (fun _ => keeps_resolve _ _) _).of_yields htypes
  have hparams : SameLists s₃ s₄ :=
    (Build.Keeps.mapM (fun _ => keeps_makeParam site _ _ _) _).of_yields hparams
  refine ⟨s₄, _, ?_, ?_, halloc⟩
  · rfl
  · exact (enlists_makeMethodGenerics hclosed hgenerics).sameLists
      (hreturn.trans (htypes.trans hparams))

namespace MakesMethod

variable {d : MethodDef}

/-- A method is allocated with what has been enlisted for it. -/
theorem of_enlists {h : MethodHandle} (henlists : Enlists (.method d.token) d.generics s s₁)
    (hrun : (Build.allocMethod d).Yields s₁ h s') :
    h = s.store.methods.next ∧ MakesMethod d s s' := by
  obtain ⟨rfl, rfl⟩ := Build.yields_modifyGet.mp hrun
  refine ⟨congrArg Arena.next henlists.methods, henlists.once, henlists.owned, henlists.listing,
    fun k => ?_, henlists.linkedTypes, henlists.linkedMethods⟩
  rw [← henlists.methods]
  exact Arena.get?_alloc _ _ _

theorem holds_iff (hm : MakesMethod d s s') {m k : MethodHandle} {own token : Token} :
    s'.Holds (staged ++ [(own, m)]) token k ↔
      s.Holds staged token k ∨ (token = own ∧ k = m) := by
  unfold BuildState.Holds
  rw [hm.linkedMethods]
  simp [or_assoc]

section Fresh

variable (hm : MakesMethod d s s') (hfresh : ∀ token, ¬ s.Holds staged token s.store.methods.next)
include hm hfresh

theorem get?_of_holds {token : Token} {k : MethodHandle} (hk : s.Holds staged token k) :
    s'.store.methods.get? k = s.store.methods.get? k := by
  rw [hm.methods, if_neg]
  rintro rfl
  exact hfresh token hk

/-- If no method that is held comes next, all that is listed further is what the new method
lists. -/
theorem lists_iff {o : GenericOwner} {g : GenericHandle} :
    s'.Lists (staged ++ [(d.token, s.store.methods.next)]) o g ↔
      s.Lists staged o g ∨ (o = .method d.token ∧ g ∈ d.generics) := by
  cases o with
  | type token => simp [BuildState.Lists, hm.listing]
  | method token =>
    simp only [BuildState.Lists, GenericOwner.method.injEq]
    constructor
    · rintro ⟨k, d', hk, hd', hg⟩
      rcases hm.holds_iff.mp hk with hk | ⟨rfl, rfl⟩
      · exact .inl ⟨k, d', hk, (hm.get?_of_holds hfresh hk).symm.trans hd', hg⟩
      · rw [hm.methods, if_pos rfl] at hd'
        exact .inr ⟨rfl, Option.some.inj hd' ▸ hg⟩
    · rintro (⟨k, d', hk, hd', hg⟩ | ⟨rfl, hg⟩)
      · exact ⟨k, d', hm.holds_iff.mpr (.inl hk), (hm.get?_of_holds hfresh hk).trans hd', hg⟩
      · exact ⟨_, d, hm.holds_iff.mpr (.inr ⟨rfl, rfl⟩), by rw [hm.methods, if_pos rfl], hg⟩

end Fresh

end MakesMethod

/-! ## Containers list what they own -/

/-- The ledger is right, containers go by their tokens, and they list what they own, each parameter
once. -/
structure Mutual (setup : Setup) (staged : List (Token × MethodHandle)) (s : BuildState) : Prop
    extends Booked setup s where
  types : ∀ h own listed, s.listing h = some (own, listed) →
    listed.toList.Nodup ∧ ∀ token, s.links.types.get? token = some h ↔ token = own
  methods : ∀ token h, s.Holds staged token h →
    ∃ d, s.store.methods.get? h = some d ∧ d.token = token ∧ d.generics.toList.Nodup
  agree : ∀ o g, o ∈ s.ownersOf g ↔ s.Lists staged o g

namespace Mutual

theorem sameLists (hs : Mutual setup staged s) (h : SameLists s s') : Mutual setup staged s' where
  toBooked := hs.toBooked.sameOwners h.toSameOwners
  types := by
    rw [h.listing, h.linkedTypes]
    exact hs.types
  methods token m hm := by
    rw [h.toSameListings.holds_iff] at hm
    rw [h.methods]
    exact hs.methods token m hm
  agree o g := by
    rw [h.ownersOf, h.toSameListings.lists_iff]
    exact hs.agree o g

/-- Types that have only been declared have no parameters. -/
theorem declared (hbooked : Booked setup s) (hs : Declared setup s) : Mutual setup [] s where
  toBooked := hbooked
  types h own listed hlisting := by
    obtain ⟨t, ht, heq⟩ := Option.map_eq_some_iff.mp hlisting
    obtain ⟨rfl, rfl⟩ := Prod.mk.inj heq
    obtain ⟨p, hp, hlink⟩ := hs.known h t ht
    obtain ⟨h', d, hlink', ht'⟩ := hs.linked p hp
    obtain rfl := Option.some.inj (hlink.symm.trans hlink')
    obtain rfl := Option.some.inj (ht.symm.trans ht')
    refine ⟨.nil, fun token => ⟨fun htoken => ?_, fun htoken => htoken ▸ hlink⟩⟩
    obtain ⟨t', ht', htoken'⟩ := hs.get?_of_linked htoken
    rw [← htoken', Option.some.inj (ht'.symm.trans ht)]
  methods token h hm := by
    rw [BuildState.Holds, hs.links] at hm
    simp at hm
  agree o g := by
    have hnone : s.ownersOf g = #[] := by
      unfold BuildState.ownersOf
      rw [hs.store]
      simp
    rw [hnone]
    refine iff_of_false (by simp) ?_
    cases o with
    | type token =>
      rintro ⟨h, listed, hlisting, hg⟩
      obtain ⟨t, ht, heq⟩ := Option.map_eq_some_iff.mp hlisting
      obtain ⟨-, rfl⟩ := Prod.mk.inj heq
      obtain ⟨p, hp, hlink⟩ := hs.known h t ht
      obtain ⟨h', d, hlink', ht'⟩ := hs.linked p hp
      obtain rfl := Option.some.inj (hlink.symm.trans hlink')
      obtain rfl := Option.some.inj (ht.symm.trans ht')
      simp [TypePlan.declaration] at hg
    | method token =>
      rintro ⟨h, d, hm, -⟩
      rw [BuildState.Holds, hs.links] at hm
      simp at hm

/-- Two types with one token are one type. -/
theorem type_eq (hs : Mutual setup staged s) {h h' : TypeHandle} {own : Token}
    {listed listed' : Array GenericHandle} (hh : s.listing h = some (own, listed))
    (hh' : s.listing h' = some (own, listed')) : h' = h :=
  Option.some.inj ((((hs.types _ _ _ hh').2 own).mpr rfl).symm.trans
    (((hs.types _ _ _ hh).2 own).mpr rfl))

theorem relist (hs : Mutual setup staged s) (hbooked : Booked setup s') {h : TypeHandle}
    {own : Token} {old listed : Array GenericHandle} (hlisting : s.listing h = some (own, old))
    (hgrows : ∀ g ∈ old, g ∈ listed) (hrelists : Relists h own listed s s') :
    Mutual setup staged s' where
  toBooked := hbooked
  types k own' listed' hk := by
    rw [hrelists.linkedTypes]
    rw [hrelists.listing] at hk
    split at hk
    next heq =>
      obtain ⟨rfl, rfl⟩ := Prod.mk.inj (Option.some.inj hk)
      exact ⟨hrelists.once, heq ▸ (hs.types _ _ _ hlisting).2⟩
    next => exact hs.types k own' listed' hk
  methods token m hm := by
    rw [hrelists.methods]
    exact hs.methods token m (hrelists.holds_iff.mp hm)
  agree o g := by rw [hrelists.owned, hs.agree, hrelists.lists_iff hlisting hgrows]

/-- A type lists the parameters that are enlisted for it. -/
theorem declareTypeGenerics (hs : Mutual setup staged s) {p : TypePlan} (hp : p ∈ setup.types)
    {pending} (hrun : (setup.declareTypeGenerics p).Yields s pending s') :
    Mutual setup staged s' := by
  have hbooked := hs.toBooked.declareTypeGenerics hp hrun
  unfold Setup.declareTypeGenerics at hrun
  obtain ⟨⟨h, t⟩, _, hmanaged, hrun⟩ := Build.yields_bind.mp hrun
  obtain ⟨hlink, ht, rfl⟩ := Build.yields_managedType.mp hmanaged
  dsimp only at hlink ht hrun
  split at hrun
  next =>
    obtain ⟨-, rfl⟩ := Build.yields_pure.mp hrun
    exact hs
  split at hrun
  next =>
    obtain ⟨-, rfl⟩ := Build.yields_pure.mp hrun
    exact hs
  obtain ⟨⟨listed, made⟩, s₁, hdeclare, hrun⟩ := Build.yields_bind.mp hrun
  obtain ⟨_, s₂, hlist, hpure⟩ := Build.yields_bind.mp hrun
  obtain ⟨-, rfl⟩ := Build.yields_pure.mp hpure
  have hlisting : s.listing h = some (t.token, t.generics) := by
    unfold BuildState.listing
    rw [ht]
    rfl
  obtain ⟨honce, htoken⟩ := hs.types _ _ _ hlisting
  rw [← (htoken p.token).mp hlink] at hlisting
  have henlists := enlists_declareGenerics hs.closed
    (fun g hg => (hs.agree (.type p.token) g).mpr ⟨h, _, hlisting, hg⟩) honce hdeclare
  exact hs.relist hbooked hlisting
    (fun _ hg => (mem_listed_declareGenerics hdeclare).mpr (.inl hg))
    (.of_enlists hlisting henlists hlist)

/-- A method is staged with what has been enlisted for it. -/
theorem makeMethod (hs : Mutual setup staged s) {p : TypePlan} (hp : p ∈ setup.types)
    {site : MemberSite} (hsite : site.topLevel = setup.blueprint.topLevel p) {m : MethodPlan}
    (hm : m ∈ p.methods) {h : MethodHandle} (hrun : (setup.makeMethod site m).Yields s h s') :
    Mutual setup (staged ++ [(m.token, h)]) s' := by
  have hbooked := hs.toBooked.makeMethod hp hsite hm
  rw [hrun.outcome_snd] at hbooked
  obtain ⟨s₁, d, htoken, henlists, halloc⟩ := yields_makeMethod_enlists hs.closed hrun
  rw [← htoken] at henlists ⊢
  obtain ⟨rfl, hmakes⟩ := MakesMethod.of_enlists henlists halloc
  have hfresh (token : Token) : ¬ s.Holds staged token s.store.methods.next := by
    intro hnext
    obtain ⟨d', hd', -⟩ := hs.methods token _ hnext
    rw [Arena.get?_next] at hd'
    cases hd'
  refine ⟨hbooked, ?types, fun token k hk => ?methods, fun o g => ?agree⟩
  case types =>
    rw [hmakes.listing, hmakes.linkedTypes]
    exact hs.types
  case methods =>
    rcases hmakes.holds_iff.mp hk with hk | ⟨rfl, rfl⟩
    · rw [hmakes.get?_of_holds hfresh hk]
      exact hs.methods token k hk
    · exact ⟨d, by rw [hmakes.methods, if_pos rfl], rfl, hmakes.once⟩
  case agree => rw [hmakes.owned, hs.agree, hmakes.lists_iff hfresh]

/-- All methods of a type are staged, with their parameters. -/
theorem stage (hs : Mutual setup [] s) {p : TypePlan} (hp : p ∈ setup.types) {site : MemberSite}
    (hsite : site.topLevel = setup.blueprint.topLevel p) {made : Staged}
    (hrun : (setup.stage site p).Yields s made s') : Mutual setup made.methods.toList s' := by
  obtain ⟨fields, s₁, methods, s₂, properties, s₃, events, hfields, hmethods, hproperties, hevents,
    rfl⟩ := yields_stage hrun
  have h₁ := hs.sameLists ((keeps_makeFields site p).of_yields hfields)
  have h₂ := Build.mapM_induction (fun _ _ staged s => Mutual setup staged s) h₁
    (fun _ m _ _ e _ _ hsplit h hstep => by
      obtain ⟨htoken, hmake⟩ := yields_withToken hstep
      have hm : m ∈ p.methods := by
        rw [← Array.mem_toList_iff, hsplit]
        simp
      obtain ⟨token, made⟩ := e
      obtain rfl : token = m.token := htoken
      exact h.makeMethod hp hsite hm hmake) hmethods
  have h₃ := h₂.sameLists ((keeps_makeProperties site _ p).of_yields hproperties)
  exact h₃.sameLists ((keeps_makeEvents site _ p).of_yields hevents)

end Mutual

/-! ## Publishing -/

section Publishing

variable {k : ObjectKind} {K : MemberKind k} {type : TypeHandle}

theorem Publishes.listing {members : List (Token × Handle k)}
    (h : Publishes K type members s s') : s'.listing = s.listing := by
  funext g
  unfold BuildState.listing
  rw [h.types]
  split
  · rw [Option.map_map]
    exact congrArg (Option.map · _) (funext fun t =>
      Prod.ext (K.alike_withHandles t _).token (K.generics_withHandles t _))
  · rfl

/-- Publishing members other than methods changes no list. -/
theorem yields_publishAll_sameLists (hK : ∀ t m, (K.withTable t m).methods = t.methods)
    {members : List (Token × Handle k)}
    (hrun : Build.Yields (members.forM (K.publish type)) s () s') : SameLists s s' where
  toSameOwners :=
    (Build.Keeps.forM (keeps_publishOne_sameOwners K type) members).of_yields hrun
  listing := (yields_publishAll hrun).listing
  methods := by rw [(yields_publishAll hrun).store]
  linkedTypes := by rw [(yields_publishAll hrun).links, K.types_withTable]
  linkedMethods := by rw [(yields_publishAll hrun).links, hK]

/-- The methods that were staged are linked when they have been published. -/
theorem Publishes.holds_iff (h : Publishes .methods type staged s s') {token : Token}
    {m : MethodHandle} : s'.Holds [] token m ↔ s.Holds staged token m := by
  have hlinked : s'.Holds [] token m ↔ s'.links.methods.get? token = some m := by
    simp [BuildState.Holds]
  rw [hlinked]
  constructor
  · intro hm
    by_cases hmem : token ∈ staged.map Prod.fst
    · obtain ⟨e, he, rfl⟩ := List.mem_map.mp hmem
      obtain rfl := Option.some.inj ((h.linked e he).symm.trans hm)
      exact .inr he
    · exact .inl ((h.others token hmem).symm.trans hm)
  · rintro (hm | hm)
    · exact h.grows token m hm
    · exact h.linked (token, m) hm

theorem Mutual.publishMethods (hs : Mutual setup staged s)
    (hrun : Build.Yields (staged.forM (MemberKind.methods.publish type)) s () s') :
    Mutual setup [] s' := by
  have h := yields_publishAll hrun
  have hsame := (Build.Keeps.forM (keeps_publishOne_sameOwners .methods type) staged).of_yields hrun
  have hmethods : s'.store.methods = s.store.methods := by rw [h.store]
  refine ⟨hs.toBooked.sameOwners hsame, ?_, fun token m hm => ?_, fun o g => ?_⟩
  · rw [h.listing, show s'.links.types = s.links.types by rw [h.links]; rfl]
    exact hs.types
  · rw [hmethods]
    exact hs.methods token m (h.holds_iff.mp hm)
  · rw [hsame.ownersOf, hs.agree]
    cases o with
    | type token => simp only [BuildState.Lists, h.listing]
    | method token => simp only [BuildState.Lists, h.holds_iff, hmethods]

theorem Mutual.publish {made : Staged} (hs : Mutual setup made.methods.toList s)
    (hrun : (Build.publish type made).Yields s () s') : Mutual setup [] s' := by
  rw [publish_eq, Build.yields_get_bind] at hrun
  split at hrun
  next => cases Build.yields_throw.mp hrun
  next =>
    obtain ⟨_, s₁, hfields, hrun⟩ := Build.yields_bind.mp hrun
    obtain ⟨_, s₂, hmethods, hrun⟩ := Build.yields_bind.mp hrun
    obtain ⟨_, s₃, hproperties, hevents⟩ := Build.yields_bind.mp hrun
    have h₁ := hs.sameLists (yields_publishAll_sameLists (fun _ _ => rfl) hfields)
    have h₂ := h₁.publishMethods hmethods
    have h₃ := h₂.sameLists (yields_publishAll_sameLists (fun _ _ => rfl) hproperties)
    exact h₃.sameLists (yields_publishAll_sameLists (fun _ _ => rfl) hevents)

end Publishing

/-! ## Builds -/

/-- A type that gets its members keeps lists and owners in agreement. -/
theorem Mutual.populateType (hs : Mutual setup [] s) {p : TypePlan} (hp : p ∈ setup.types)
    (hrun : (setup.populateType p).Yields s () s') : Mutual setup [] s' := by
  unfold Setup.populateType at hrun
  split at hrun
  · exact hs.sameLists ((keeps_notice_sameLists rfl).of_yields hrun)
  · obtain ⟨h, t, made, s₁, s₂, -, -, hstage, hpublish, hnotice⟩ :=
      yields_populate (Setup.yields_inContext.mp hrun)
    exact ((hs.stage hp rfl hstage).publish hpublish).sameLists
      ((keeps_noticePopulated_sameLists h).of_yields hnotice)

/-- In every image without failures lists and owners agree. -/
theorem mutual_of_run {image : Image} {s : BuildState} (hrun : setup.run = (.ok image, s))
    (hclean : image.failures = #[]) :
    ∃ s₁, Mutual setup [] s₁ ∧ image = setup.image s₁ ∧ s.sharings = s₁.sharings := by
  obtain ⟨s₀, s₁, s₂, hdeclare, hconfigure, hpass, rfl, hsharings⟩ := passes_of_run hrun
  have h₀ := Mutual.declared (booked_of_declareTypes rfl hdeclare) (declared_of_yields hdeclare)
  have h₁ : Mutual setup [] s₁ := configureHierarchy_preserves
    (fun _ _ hsame h => h.sameLists hsame)
    (fun _ hp _ _ _ h hstep => h.declareTypeGenerics hp hstep) h₀ hconfigure
  have h₂ : Mutual setup [] (setup.opened s₁) := h₁.sameLists (keeps_notice_sameLists rfl s₁)
  exact ⟨s₂, Build.forM_induction (fun _ _ s => Mutual setup [] s) h₂
    (fun _ _ _ _ _ hsplit h hstep => h.populateType (by simp [hsplit]) hstep)
    (forM_populateType_of_clean hpass hclean), rfl, hsharings⟩

/-! ## Images -/

/-- A container lists what it owns among the parameters of the image, each of them once. -/
structure Image.ListsOwned (i : Image) (owner : GenericOwner) (listed : Array GenericHandle) :
    Prop where
  once : listed.toList.Nodup
  owned : ∀ g, g ∈ listed ↔
    g ∈ i.generics ∧ ∃ x, i.store.generics.get? g = some x ∧ owner ∈ x.owners

/-- The owner is a type or a method that the image has under the owner's token. -/
def Image.Links (i : Image) : GenericOwner → Prop
  | .type token => ∃ h t, i.type? token = some h ∧ i.store.types.get? h = some t ∧ t.token = token
  | .method token => ∃ d, i.method? token = some d ∧ d.token = token

/-- The number of owners of a parameter. -/
def Image.ownerCount (i : Image) (g : GenericHandle) : Nat :=
  ((i.store.generics.get? g).map (·.owners.size)).getD 0

/-- The lists of parameters, their owners and the number of times that sharing was told agree. -/
structure Accounted (i : Image) (sharings : Nat) : Prop where
  types : ∀ h t, i.store.types.get? h = some t → i.ListsOwned (.type t.token) t.generics
  methods : ∀ token d, i.method? token = some d → i.ListsOwned (.method d.token) d.generics
  /-- The parameters are distinct objects. -/
  distinct : i.generics.Nodup
  owners : ∀ g ∈ i.generics, ∃ x, i.store.generics.get? g = some x ∧
    x.owners[0]? = some x.declaredBy ∧ x.owners.toList.Nodup ∧ ∀ o ∈ x.owners, i.Links o
  told : sharings = (i.generics.map fun g => i.ownerCount g - 1).sum

namespace Mutual

/-- What is owned is a parameter of the image. -/
theorem mem_generics (hs : Mutual setup [] s) {o : GenericOwner} {g : GenericHandle}
    (ho : o ∈ s.ownersOf g) : g ∈ (setup.image s).generics ∧
      ∃ x, (setup.image s).store.generics.get? g = some x ∧ o ∈ x.owners := by
  cases hx : s.store.generics.get? g with
  | none => simp [BuildState.ownersOf, hx] at ho
  | some x =>
    rw [BuildState.ownersOf_of_some hx] at ho
    exact ⟨GenericRegistry.mem_toList.mpr (hs.names hx), x, hx, ho⟩

/-- A container that lists what the state says owns just that. -/
theorem listsOwned (hs : Mutual setup [] s) {o : GenericOwner} {listed : Array GenericHandle}
    (honce : listed.toList.Nodup) (hlists : ∀ g, s.Lists [] o g ↔ g ∈ listed) :
    (setup.image s).ListsOwned o listed := by
  refine ⟨honce, fun g => ?_⟩
  rw [← hlists, ← hs.agree]
  refine ⟨hs.mem_generics, ?_⟩
  rintro ⟨-, x, hx, ho⟩
  rwa [BuildState.ownersOf_of_some hx]

/-- An owner lists what it owns, so it is linked. -/
theorem links (hs : Mutual setup [] s) {o : GenericOwner} {g : GenericHandle}
    (ho : o ∈ s.ownersOf g) : (setup.image s).Links o := by
  rw [hs.agree] at ho
  cases o with
  | type token =>
    obtain ⟨h, listed, hlisting, -⟩ := ho
    have hlink := ((hs.types _ _ _ hlisting).2 token).mpr rfl
    obtain ⟨t, ht, heq⟩ := Option.map_eq_some_iff.mp hlisting
    exact ⟨h, t, hlink, ht, (Prod.mk.inj heq).1⟩
  | method token =>
    obtain ⟨h, d, hheld, hd, -⟩ := ho
    obtain ⟨d', hd', htoken, -⟩ := hs.methods token h hheld
    obtain rfl := Option.some.inj (hd.symm.trans hd')
    have hlink : s.links.methods.get? token = some h := by simpa [BuildState.Holds] using hheld
    exact ⟨d, by simp [Image.method?, Setup.image, hlink, hd], htoken⟩

/-- An image in which lists and owners agree is accounted for. -/
theorem accounted (hs : Mutual setup [] s) : Accounted (setup.image s) s.sharings where
  types h t ht := by
    have hlisting : s.listing h = some (t.token, t.generics) := by
      unfold BuildState.listing
      rw [show s.store.types.get? h = some t from ht]
      rfl
    refine hs.listsOwned (hs.types _ _ _ hlisting).1 fun g => ?_
    constructor
    · rintro ⟨h', listed, hlisting', hg⟩
      obtain rfl := hs.type_eq hlisting hlisting'
      exact (Prod.mk.inj (Option.some.inj (hlisting.symm.trans hlisting'))).2 ▸ hg
    · exact fun hg => ⟨h, _, hlisting, hg⟩
  methods token d hmethod := by
    obtain ⟨h, hlink, hd⟩ := Option.bind_eq_some_iff.mp hmethod
    obtain ⟨d', hd', rfl, honce⟩ := hs.methods token h (.inl hlink)
    obtain rfl := Option.some.inj (hd.symm.trans hd')
    refine hs.listsOwned honce fun g => ?_
    constructor
    · rintro ⟨h', d', hheld, hd', hg⟩
      have hlink' : s.links.methods.get? d.token = some h' := by
        simpa [BuildState.Holds] using hheld
      obtain rfl := Option.some.inj (hlink.symm.trans hlink')
      exact Option.some.inj (hd'.symm.trans hd) ▸ hg
    · exact fun hg => ⟨h, d, .inl hlink, hd, hg⟩
  distinct := hs.nodup_toList
  owners g hg := by
    obtain ⟨k, hk⟩ := GenericRegistry.mem_toList.mp hg
    obtain ⟨x, hx⟩ := hs.closed k g hk
    have howners := BuildState.ownersOf_of_some hx
    refine ⟨x, hx, hs.first g x hx, howners ▸ hs.nodup g, fun o ho => hs.links (g := g) ?_⟩
    rwa [howners]
  told := by
    have hcount (g : GenericHandle) : (setup.image s).ownerCount g = (s.ownersOf g).size := by
      unfold Image.ownerCount BuildState.ownersOf
      show ((s.store.generics.get? g).map _).getD 0 = _
      cases s.store.generics.get? g <;> rfl
    simp only [hcount]
    exact hs.sharings_eq

end Mutual

/-- In every image without failures, a type or a method lists a parameter exactly if the parameter
records it as an owner, and then lists it once. The owners of a parameter are distinct, linked, and
start with the one that made it, and sharing has been told once for each of the others. -/
theorem lists_and_owners_agree {image : Image} {s : BuildState}
    (hrun : setup.run = (.ok image, s)) (hclean : image.failures = #[]) :
    Accounted image s.sharings := by
  obtain ⟨s₁, hmutual, rfl, hsharings⟩ := mutual_of_run hrun hclean
  rw [hsharings]
  exact hmutual.accounted

/-- Two types and a method that share a parameter, which the method declares twice, besides one of
its own. -/
def commons : Setup where
  blueprint := .ofTypes "commons"
    #[{ token := ⟨0x02000001⟩, space := "", name := "Meadow", flags := .empty, flavor := .classType
        module := "commons", generics := some #[⟨0, 0, "T", .empty, #[TypeRef.var 0]⟩] },
      { token := ⟨0x02000002⟩, space := "", name := "Pond", flags := .empty, flavor := .classType
        module := "commons", generics := some #[⟨0, 0, "U", .empty, #[]⟩]
        methods :=
          #[{ token := ⟨0x06000001⟩, name := "Fish", flags := .empty, implFlags := .empty
              returnType := TypeRef.mvar 1
              generics := some #[⟨0, 0, "V", .empty, #[]⟩, ⟨1, 1, "W", .empty, #[TypeRef.var 0]⟩,
                ⟨0, 2, "X", .empty, #[]⟩] }] }]

theorem lists_and_owners_agree_commons :
    ∃ image s, commons.run = (.ok image, s) ∧ image.failures = #[] ∧ image.generics.length = 2 ∧
      s.sharings = 2 ∧ Accounted image s.sharings := by
  obtain ⟨image, s, hrun⟩ := commons.run_of_isOk (by decide +kernel)
  have hmade : commons.run.1.toOption.map (fun i => (i.failures.size, i.generics.length)) =
      some (0, 2) := by
    decide +kernel
  rw [hrun] at hmade
  obtain ⟨hfailures, hgenerics⟩ := Prod.mk.inj (Option.some.inj hmade)
  have hclean := Array.eq_empty_of_size_eq_zero hfailures
  have htold : commons.run.2.sharings = 2 := by decide +kernel
  rw [hrun] at htold
  exact ⟨image, s, hrun, hclean, hgenerics, htold, lists_and_owners_agree hrun hclean⟩

end ClrImage
