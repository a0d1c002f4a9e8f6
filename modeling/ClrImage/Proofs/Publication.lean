import ClrImage.Proofs.Hierarchy
import ClrImage.Proofs.Staging

/-!
# Publication

Staged members are linked under their tokens and listed in their type. The four kinds of members are
published in the same way, one after the other; a kind is a place in the link table and a place in a
type.

- `MemberKind`, `MemberKind.publish`: a kind of members, and the step that publishes one of them.
- `Publishes`: the effect of publishing members of a kind, when it succeeds.
- `yields_publishAll`, `fails_publishAll`, `publishAll_of_free`: what publishing several of them
  does.
- `PublishesPart`, `publish_part`: how far a publication has got, whatever its outcome.
- `PublishesInto`, `Populates`: what holds of a publication and of a population, whatever its
  outcome.
-/

namespace ClrImage

/-! ## Kinds of members -/

/-- A kind of members: the place of its links, and the place where types list it. -/
structure MemberKind (k : ObjectKind) where
  table : LinkTable → WriteOnce Token (Handle k)
  withTable : LinkTable → WriteOnce Token (Handle k) → LinkTable
  handles : TypeDef → Array (Handle k)
  withHandles : TypeDef → Array (Handle k) → TypeDef
  extends_withTable : ∀ t m, (table t).Extends m → t.Extends (withTable t m)
  table_extends : ∀ t t', LinkTable.Extends t t' → (table t).Extends (table t')
  table_withTable : ∀ t m, table (withTable t m) = m := by intros; rfl
  withTable_table : ∀ t, withTable t (table t) = t := by intros; rfl
  withTable_withTable : ∀ t m m', withTable (withTable t m) m' = withTable t m' := by intros; rfl
  types_withTable : ∀ t m, (withTable t m).types = t.types := by intros; rfl
  handles_withHandles : ∀ t hs, handles (withHandles t hs) = hs := by intros; rfl
  withHandles_handles : ∀ t, withHandles t (handles t) = t := by intros; rfl
  withHandles_withHandles : ∀ t hs hs', withHandles (withHandles t hs) hs' = withHandles t hs' := by
    intros; rfl
  alike_withHandles : ∀ t hs, TypeDef.Alike t (withHandles t hs) := by
    intros; exact ⟨rfl, rfl, rfl, rfl, rfl, rfl⟩
  generics_withHandles : ∀ t hs, (withHandles t hs).generics = t.generics := by intros; rfl

namespace MemberKind

def fields : MemberKind .field where
  table t := t.fields
  withTable t fields := { t with fields }
  handles t := t.fields
  withHandles t fields := { t with fields }
  extends_withTable t _ h := { LinkTable.Extends.refl t with fields := h }
  table_extends _ _ h := h.fields

def methods : MemberKind .method where
  table t := t.methods
  withTable t methods := { t with methods }
  handles t := t.methods
  withHandles t methods := { t with methods }
  extends_withTable t _ h := { LinkTable.Extends.refl t with methods := h }
  table_extends _ _ h := h.methods

def properties : MemberKind .property where
  table t := t.properties
  withTable t properties := { t with properties }
  handles t := t.properties
  withHandles t properties := { t with properties }
  extends_withTable t _ h := { LinkTable.Extends.refl t with properties := h }
  table_extends _ _ h := h.properties

def events : MemberKind .event where
  table t := t.events
  withTable t events := { t with events }
  handles t := t.events
  withHandles t events := { t with events }
  extends_withTable t _ h := { LinkTable.Extends.refl t with events := h }
  table_extends _ _ h := h.events

end MemberKind

variable {k : ObjectKind}

/-- Lists a member of the kind behind the others. -/
def MemberKind.add (K : MemberKind k) (t : TypeDef) (h : Handle k) : TypeDef :=
  K.withHandles t ((K.handles t).push h)

/-- Lists members of the kind behind the others. -/
def MemberKind.addAll (K : MemberKind k) (members : List (Token × Handle k)) (t : TypeDef) :
    TypeDef :=
  K.withHandles t (K.handles t ++ (members.map Prod.snd).toArray)

/-- Links and lists a member of the kind. -/
def MemberKind.publish (K : MemberKind k) (type : TypeHandle) (member : Token × Handle k) :
    Build Unit :=
  Build.publishMember type
    (fun t token h => (LinkTable.link (K.table t) token h).map (K.withTable t)) K.add member

/-- The kinds in the order in which their members are published. -/
theorem publish_eq (type : TypeHandle) (staged : Staged) :
    Build.publish type staged = (do
      match (← get).links.firstTaken? staged with
      | some token => throw (.duplicateLink token)
      | none =>
        staged.fields.toList.forM (MemberKind.fields.publish type)
        staged.methods.toList.forM (MemberKind.methods.publish type)
        staged.properties.toList.forM (MemberKind.properties.publish type)
        staged.events.toList.forM (MemberKind.events.publish type)) := rfl

/-! ## The effect of publication -/

/-- What publishing members of a kind in a type does. -/
structure Publishes (K : MemberKind k) (type : TypeHandle) (members : List (Token × Handle k))
    (s s' : BuildState) : Prop where
  links : s'.links = K.withTable s.links (K.table s'.links)
  grows : (K.table s.links).Extends (K.table s'.links)
  linked : ∀ e ∈ members, (K.table s'.links).get? e.1 = some e.2
  others : ∀ token, token ∉ members.map Prod.fst →
    (K.table s'.links).get? token = (K.table s.links).get? token
  types : ∀ g, s'.store.types.get? g =
    if g = type then (s.store.types.get? g).map (K.addAll members) else s.store.types.get? g
  size : s'.store.types.size = s.store.types.size
  store : s'.store = { s.store with types := s'.store.types }
  registry : s'.registry = s.registry
  declared : s'.declared = s.declared
  failures : s'.failures = s.failures

namespace Publishes

variable {K : MemberKind k} {type : TypeHandle} {s s₁ s' : BuildState}

theorem nil (K : MemberKind k) (type : TypeHandle) (s : BuildState) : Publishes K type [] s s where
  links := (K.withTable_table s.links).symm
  grows := .refl _
  linked := by simp
  others _ _ := rfl
  types g := by
    have hid : K.addAll [] = id := by
      funext t
      simp [MemberKind.addAll, K.withHandles_handles]
    rw [hid, Option.map_id_apply, ite_self]
  size := rfl
  store := rfl
  registry := rfl
  declared := rfl
  failures := rfl

theorem cons {e : Token × Handle k} {rest : List (Token × Handle k)}
    (h₁ : Publishes K type [e] s s₁) (h₂ : Publishes K type rest s₁ s') :
    Publishes K type (e :: rest) s s' where
  links := by rw [h₂.links, h₁.links, K.withTable_withTable, K.table_withTable]
  grows := h₁.grows.trans h₂.grows
  linked e' he' := by
    rcases List.mem_cons.mp he' with rfl | he'
    · exact h₂.grows _ _ (h₁.linked e' List.mem_cons_self)
    · exact h₂.linked e' he'
  others token htoken := by
    rw [List.map_cons, List.mem_cons, not_or] at htoken
    rw [h₂.others token htoken.2, h₁.others token (by simpa using htoken.1)]
  types g := by
    rw [h₂.types g, h₁.types g]
    split
    · rw [Option.map_map]
      congr 1
      funext t
      simp [MemberKind.addAll, K.withHandles_withHandles, K.handles_withHandles]
    · rfl
  size := h₂.size.trans h₁.size
  store := by rw [h₂.store, h₁.store]
  registry := h₂.registry.trans h₁.registry
  declared := h₂.declared.trans h₁.declared
  failures := h₂.failures.trans h₁.failures

/-- Publishing is growth. -/
theorem extends_state {members : List (Token × Handle k)} (h : Publishes K type members s s') :
    s.Extends s' where
  types g t ht := by
    rw [h.types g]
    split
    · exact ⟨_, by rw [ht]; rfl, K.alike_withHandles t _⟩
    · exact ⟨t, ht, .refl t⟩
  generics := by rw [h.store]; exact .refl GenericParam.Alike.refl _
  fields := by rw [h.store]; exact .refl Eq.refl _
  params := by rw [h.store]; exact .refl Eq.refl _
  methods := by rw [h.store]; exact .refl Eq.refl _
  properties := by rw [h.store]; exact .refl Eq.refl _
  events := by rw [h.store]; exact .refl Eq.refl _
  links := by rw [h.links]; exact K.extends_withTable _ _ h.grows
  registry := by rw [h.registry]; exact .refl _
  registryScope := by rw [h.registry]

end Publishes

section Steps

variable {K : MemberKind k} {type : TypeHandle} {e : Token × Handle k} {s s' : BuildState}

theorem yields_publishOne (hrun : (K.publish type e).Yields s () s') :
    Publishes K type [e] s s' := by
  unfold MemberKind.publish Build.publishMember at hrun
  simp only [Build.yields_get_bind, Build.yields_liftExcept_bind, Build.yields_modify_bind] at hrun
  obtain ⟨links, hlinks, hlist⟩ := hrun
  obtain ⟨table, hlink, rfl⟩ := map_eq_ok.mp hlinks
  obtain rfl := Build.yields_modify.mp hlist
  have htable : (K.table s.links).Extends table ∧ table.get? e.1 = some e.2 ∧
      ∀ token, token ≠ e.1 → table.get? token = (K.table s.links).get? token := by
    rcases LinkTable.link_eq_ok.mp hlink with ⟨hfree, rfl⟩ | ⟨hheld, rfl⟩
    · refine ⟨WriteOnce.extends_offer _ _ _, ?_, fun token htoken => ?_⟩
      · rw [WriteOnce.get?_offer, if_pos rfl, hfree]
        rfl
      · rw [WriteOnce.get?_offer, if_neg htoken]
    · exact ⟨.refl _, hheld, fun _ _ => rfl⟩
  exact {
    links := by rw [K.table_withTable]
    grows := by rw [K.table_withTable]; exact htable.1
    linked := by simpa [K.table_withTable] using htable.2.1
    others := by simpa [K.table_withTable] using htable.2.2
    types := fun g => Arena.get?_modify _ type (K.addAll [e]) g
    size := Arena.size_modify _ type _
    store := rfl, registry := rfl, declared := rfl, failures := rfl }

/-- A member whose token is free is published. -/
theorem publishOne_of_free (type : TypeHandle) (hfree : (K.table s.links).get? e.1 = none) :
    ∃ s', (K.publish type e).Yields s () s' := by
  unfold MemberKind.publish Build.publishMember
  simp only [Build.yields_get_bind, Build.yields_liftExcept_bind, Build.yields_modify_bind]
  exact ⟨_, _, map_eq_ok.mpr ⟨_, LinkTable.link_eq_ok.mpr (.inl ⟨hfree, rfl⟩), rfl⟩, rfl⟩

/-- A member that is refused changes nothing. -/
theorem fails_publishOne {error : Failure} (hrun : (K.publish type e).Fails s error s') :
    s' = s := by
  unfold MemberKind.publish Build.publishMember at hrun
  rcases Build.fails_bind.mp hrun with hget | ⟨_, _, hget, hrun⟩
  · cases Build.fails_get.mp hget
  · obtain ⟨rfl, rfl⟩ := Build.yields_get.mp hget
    rcases Build.fails_bind.mp hrun with hlink | ⟨_, _, hlink, hrun⟩
    · exact (Build.fails_liftExcept.mp hlink).2.symm
    · rcases Build.fails_bind.mp hrun with hmodify | ⟨_, _, -, hmodify⟩
      · cases Build.fails_modify.mp hmodify
      · cases Build.fails_modify.mp hmodify

/-- Members that are published one after the other are all published. -/
theorem yields_publishAll {members : List (Token × Handle k)}
    (hrun : Build.Yields (members.forM (K.publish type)) s () s') :
    Publishes K type members s s' := by
  induction members generalizing s with
  | nil =>
    obtain rfl := Build.yields_forM_nil.mp hrun
    exact .nil K type s
  | cons e rest ih =>
    obtain ⟨s₁, hfirst, hrest⟩ := Build.yields_forM_cons.mp hrun
    exact (yields_publishOne hfirst).cons (ih hrest)

/-- Members with free and distinct tokens can be published. -/
theorem publishAll_of_free (type : TypeHandle) {members : List (Token × Handle k)}
    (hfree : ∀ e ∈ members, (K.table s.links).get? e.1 = none)
    (hnodup : (members.map Prod.fst).Nodup) :
    ∃ s', Build.Yields (members.forM (K.publish type)) s () s' := by
  induction members generalizing s with
  | nil => exact ⟨s, Build.yields_forM_nil.mpr rfl⟩
  | cons e rest ih =>
    rw [List.map_cons, List.nodup_cons] at hnodup
    obtain ⟨s₁, hfirst⟩ := publishOne_of_free type (hfree e List.mem_cons_self)
    have hstill : ∀ e' ∈ rest, (K.table s₁.links).get? e'.1 = none := by
      intro e' he'
      rw [(yields_publishOne hfirst).others, hfree e' (List.mem_cons_of_mem e he')]
      rintro heq
      exact hnodup.1 (List.mem_singleton.mp heq ▸ List.mem_map_of_mem he')
    obtain ⟨s', hrest⟩ := ih hstill hnodup.2
    exact ⟨s', Build.yields_forM_cons.mpr ⟨s₁, hfirst, hrest⟩⟩

end Steps

/-- A type with all staged members behind those that it lists. -/
def Staged.listedIn (staged : Staged) (t : TypeDef) : TypeDef :=
  { t with
    fields := t.fields ++ (staged.fields.toList.map Prod.snd).toArray
    methods := t.methods ++ (staged.methods.toList.map Prod.snd).toArray
    properties := t.properties ++ (staged.properties.toList.map Prod.snd).toArray
    events := t.events ++ (staged.events.toList.map Prod.snd).toArray }

/-- All staged members are linked under their tokens and listed in the type. -/
structure Published (type : TypeHandle) (staged : Staged) (s s' : BuildState) : Prop where
  fields : ∀ e ∈ staged.fields.toList, s'.links.fields.get? e.1 = some e.2
  methods : ∀ e ∈ staged.methods.toList, s'.links.methods.get? e.1 = some e.2
  properties : ∀ e ∈ staged.properties.toList, s'.links.properties.get? e.1 = some e.2
  events : ∀ e ∈ staged.events.toList, s'.links.events.get? e.1 = some e.2
  listed : s'.store.types.get? type = (s.store.types.get? type).map staged.listedIn

/-- Behind the four passes the type lists the members behind those that it listed before. -/
theorem listed_of_publishes {type : TypeHandle} {staged : Staged} {s s₁ s₂ s₃ s' : BuildState}
    (h₁ : Publishes .fields type staged.fields.toList s s₁)
    (h₂ : Publishes .methods type staged.methods.toList s₁ s₂)
    (h₃ : Publishes .properties type staged.properties.toList s₂ s₃)
    (h₄ : Publishes .events type staged.events.toList s₃ s') :
    s'.store.types.get? type = (s.store.types.get? type).map staged.listedIn := by
  rw [h₄.types, if_pos rfl, h₃.types, if_pos rfl, h₂.types, if_pos rfl, h₁.types, if_pos rfl,
    Option.map_map, Option.map_map, Option.map_map]
  rfl

/-- A publication that succeeds publishes all members. -/
theorem yields_publish {type : TypeHandle} {staged : Staged} {s s' : BuildState}
    (hrun : (Build.publish type staged).Yields s () s') : Published type staged s s' := by
  rw [publish_eq, Build.yields_get_bind] at hrun
  split at hrun
  next => cases Build.yields_throw.mp hrun
  next =>
    obtain ⟨_, s₁, hfields, hrun⟩ := Build.yields_bind.mp hrun
    obtain ⟨_, s₂, hmethods, hrun⟩ := Build.yields_bind.mp hrun
    obtain ⟨_, s₃, hproperties, hevents⟩ := Build.yields_bind.mp hrun
    have h₁ := yields_publishAll hfields
    have h₂ := yields_publishAll hmethods
    have h₃ := yields_publishAll hproperties
    have h₄ := yields_publishAll hevents
    have h₂₄ := h₂.extends_state.trans (h₃.extends_state.trans h₄.extends_state)
    have h₃₄ := h₃.extends_state.trans h₄.extends_state
    -- what one kind has linked stays linked while the others are published
    exact {
      fields := fun e he => h₂₄.links.fields _ _ (h₁.linked e he)
      methods := fun e he => h₃₄.links.methods _ _ (h₂.linked e he)
      properties := fun e he => h₄.extends_state.links.properties _ _ (h₃.linked e he)
      events := h₄.linked
      listed := listed_of_publishes h₁ h₂ h₃ h₄ }

/-! ## Publication up to a failure -/

/-- Whatever the outcome, the members that have been published are the first ones. -/
theorem publishAll_part (K : MemberKind k) (type : TypeHandle) (members : List (Token × Handle k))
    (s : BuildState) :
    ∃ part, part <+: members ∧
      Publishes K type part s (Build.outcome (members.forM (K.publish type)) s).2 := by
  induction members generalizing s with
  | nil => exact ⟨[], List.prefix_rfl, .nil K type s⟩
  | cons e rest ih =>
    rw [Build.forM_cons_eq]
    rcases Build.yields_or_fails (K.publish type e) s with ⟨_, s₁, hfirst⟩ | ⟨error, s₁, hfirst⟩
    · obtain ⟨part, hpart, hrest⟩ := ih s₁
      rw [Build.outcome_bind_of_yields hfirst]
      exact ⟨e :: part, List.cons_prefix_cons.mpr ⟨rfl, hpart⟩,
        (yields_publishOne hfirst).cons hrest⟩
    · rw [Build.outcome_bind_of_fails hfirst]
      obtain rfl := fails_publishOne hfirst
      exact ⟨[], List.nil_prefix, .nil K type s₁⟩

/-- Some first members of a kind have been published, and from there on the states are related as
`R` says. -/
def PublishesThen (K : MemberKind k) (type : TypeHandle) (members : List (Token × Handle k))
    (R : BuildState → BuildState → Prop) (s s' : BuildState) : Prop :=
  ∃ part s₁, part <+: members ∧ Publishes K type part s s₁ ∧ R s₁ s'

theorem PublishesThen.refl (K : MemberKind k) (type : TypeHandle)
    (members : List (Token × Handle k)) {R : BuildState → BuildState → Prop} (hR : ∀ s, R s s)
    (s : BuildState) : PublishesThen K type members R s s :=
  ⟨[], s, List.nil_prefix, .nil K type s, hR s⟩

/-- What comes behind the publication of a kind is done, or the publication has ended before it. -/
theorem keeps_publishAll_bind (K : MemberKind k) (type : TypeHandle)
    (members : List (Token × Handle k)) {next : Unit → Build Unit}
    {R : BuildState → BuildState → Prop} (hR : ∀ s, R s s) (hnext : ∀ u, Build.Keeps R (next u)) :
    Build.Keeps (PublishesThen K type members R)
      (members.forM (K.publish type) >>= next) := by
  intro s
  obtain ⟨part, hpart, hpublishes⟩ := publishAll_part K type members s
  rcases Build.yields_or_fails (members.forM (K.publish type)) s with
    ⟨_, s₁, h⟩ | ⟨error, s₁, h⟩ <;>
    rw [h.outcome_snd] at hpublishes
  · rw [Build.outcome_bind_of_yields h]
    exact ⟨part, s₁, hpart, hpublishes, hnext _ s₁⟩
  · rw [Build.outcome_bind_of_fails h]
    exact ⟨part, s₁, hpart, hpublishes, hR s₁⟩

/-- Of each kind some first members have been published, those of the fields first. -/
structure PublishesPart (type : TypeHandle) (staged part : Staged) (s s' : BuildState) : Prop where
  fields_part : part.fields.toList <+: staged.fields.toList
  methods_part : part.methods.toList <+: staged.methods.toList
  properties_part : part.properties.toList <+: staged.properties.toList
  events_part : part.events.toList <+: staged.events.toList
  publishes : ∃ s₁ s₂ s₃, Publishes .fields type part.fields.toList s s₁ ∧
    Publishes .methods type part.methods.toList s₁ s₂ ∧
    Publishes .properties type part.properties.toList s₂ s₃ ∧
    Publishes .events type part.events.toList s₃ s'

/-- The type lists what has been published behind what it listed before. -/
theorem PublishesPart.listed {type : TypeHandle} {staged part : Staged} {s s' : BuildState}
    (h : PublishesPart type staged part s s') :
    s'.store.types.get? type = (s.store.types.get? type).map part.listedIn := by
  obtain ⟨s₁, s₂, s₃, h₁, h₂, h₃, h₄⟩ := h.publishes
  exact listed_of_publishes h₁ h₂ h₃ h₄

/-- Publication, whatever its outcome, publishes some first members of each kind. -/
theorem publish_part (type : TypeHandle) (staged : Staged) (s : BuildState) :
    ∃ part, PublishesPart type staged part s ((Build.publish type staged).outcome s).2 := by
  have hnothing : PublishesPart type staged {} s s :=
    ⟨List.nil_prefix, List.nil_prefix, List.nil_prefix, List.nil_prefix, s, s, s,
      .nil _ type s, .nil _ type s, .nil _ type s, .nil _ type s⟩
  rw [publish_eq, Build.outcome_bind, Build.outcome_get]
  dsimp only
  split
  next => exact ⟨{}, hnothing⟩
  next =>
    have hevents : Build.Keeps (PublishesThen .events type staged.events.toList Eq)
        (staged.events.toList.forM (MemberKind.events.publish type)) := by
      intro s
      obtain ⟨part, hpart, h⟩ := publishAll_part .events type staged.events.toList s
      exact ⟨part, _, hpart, h, rfl⟩
    have hrefl₁ := PublishesThen.refl .events type staged.events.toList (fun s => Eq.refl s)
    have hrefl₂ := PublishesThen.refl .properties type staged.properties.toList hrefl₁
    have hrefl₃ := PublishesThen.refl .methods type staged.methods.toList hrefl₂
    obtain ⟨fields, s₁, hfields, h₁, methods, s₂, hmethods, h₂, properties, s₃, hproperties, h₃,
      events, s₄, hevents, h₄, heq⟩ :=
      keeps_publishAll_bind .fields type staged.fields.toList hrefl₃
        (fun _ => keeps_publishAll_bind .methods type _ hrefl₂
          fun _ => keeps_publishAll_bind .properties type _ hrefl₁ fun _ => hevents) s
    exact ⟨⟨fields.toArray, methods.toArray, properties.toArray, events.toArray⟩, hfields, hmethods,
      hproperties, hevents, s₁, s₂, s₃, h₁, h₂, h₃, heq ▸ h₄⟩

/-! ## What holds of a population on its way -/

/-- Members have been made and perhaps published in one type. -/
structure OnlyType (type : TypeHandle) (s s' : BuildState) : Prop
    extends BuildState.Extends s s' where
  otherTypes : ∀ g, g ≠ type → s'.store.types.get? g = s.store.types.get? g
  typeGenerics : ∀ g, (s'.store.types.get? g).map (·.generics) =
    (s.store.types.get? g).map (·.generics)
  linkedTypes : s'.links.types = s.links.types
  declared_eq : s'.declared = s.declared
  closed : s.RegistryClosed → s'.RegistryClosed

/-- Members have been made and perhaps published in one type, and no failure has been recorded. -/
structure Populates (type : TypeHandle) (s s' : BuildState) : Prop extends OnlyType type s s' where
  failures_eq : s'.failures = s.failures

namespace Populates

variable {type : TypeHandle} {s s₁ s' : BuildState}

theorem refl (type : TypeHandle) (s : BuildState) : Populates type s s :=
  ⟨⟨.refl s, fun _ _ => rfl, fun _ => rfl, rfl, rfl, id⟩, rfl⟩

theorem trans (h₁ : Populates type s s₁) (h₂ : Populates type s₁ s') : Populates type s s' :=
  ⟨⟨h₁.toExtends.trans h₂.toExtends,
    fun g hg => (h₂.otherTypes g hg).trans (h₁.otherTypes g hg),
    fun g => (h₂.typeGenerics g).trans (h₁.typeGenerics g), h₂.linkedTypes.trans h₁.linkedTypes,
    h₂.declared_eq.trans h₁.declared_eq, h₂.closed ∘ h₁.closed⟩,
    h₂.failures_eq.trans h₁.failures_eq⟩

end Populates

/-- Staging populates any type. -/
theorem Stages.populates {s s' : BuildState} (h : Stages s s') (type : TypeHandle) :
    Populates type s s' where
  toExtends := h.toExtends
  otherTypes g _ := by rw [h.types_eq]
  typeGenerics g := by rw [h.types_eq]
  linkedTypes := by rw [h.links_eq]
  declared_eq := h.declared_eq
  failures_eq := h.failures_eq
  closed := h.closed

/-! ## What holds of a publication on its way -/

/-- Members have perhaps been published in one type, and nothing else has changed. -/
structure PublishesInto (type : TypeHandle) (s s' : BuildState) : Prop
    extends SameGenerics s s' where
  otherTypes : ∀ g, g ≠ type → s'.store.types.get? g = s.store.types.get? g
  linkedTypes : s'.links.types = s.links.types
  declared_eq : s'.declared = s.declared
  failures_eq : s'.failures = s.failures

namespace PublishesInto

variable {type : TypeHandle} {s s₁ s' : BuildState}

theorem refl (type : TypeHandle) (s : BuildState) : PublishesInto type s s :=
  ⟨.refl s, fun _ _ => rfl, rfl, rfl, rfl⟩

theorem trans (h₁ : PublishesInto type s s₁) (h₂ : PublishesInto type s₁ s') :
    PublishesInto type s s' :=
  ⟨h₁.toSameGenerics.trans h₂.toSameGenerics,
    fun g hg => (h₂.otherTypes g hg).trans (h₁.otherTypes g hg),
    h₂.linkedTypes.trans h₁.linkedTypes, h₂.declared_eq.trans h₁.declared_eq,
    h₂.failures_eq.trans h₁.failures_eq⟩

instance (type : TypeHandle) : IsPreorder BuildState (PublishesInto type) where
  refl := refl type
  trans _ _ _ := trans

/-- Publishing in a type populates it. -/
theorem populates (h : PublishesInto type s s') : Populates type s s' where
  toExtends := h.toExtends
  otherTypes := h.otherTypes
  typeGenerics := h.typeGenerics
  linkedTypes := h.linkedTypes
  declared_eq := h.declared_eq
  failures_eq := h.failures_eq
  closed := h.closed

end PublishesInto

theorem Publishes.into {K : MemberKind k} {type : TypeHandle}
    {members : List (Token × Handle k)} {s s' : BuildState}
    (h : Publishes K type members s s') : PublishesInto type s s' where
  toExtends := h.extends_state
  registry_eq := h.registry
  generics_eq := by rw [h.store]
  methods_eq := by rw [h.store]
  typeGenerics g := by
    rw [h.types g]
    split
    · rw [Option.map_map]
      congr 1
      funext t
      exact K.generics_withHandles t _
    · rfl
  otherTypes g hg := by rw [h.types g, if_neg hg]
  linkedTypes := by rw [h.links, K.types_withTable]
  declared_eq := h.declared
  failures_eq := h.failures

/-- Publishing one member changes that type only, also if it fails. -/
theorem keeps_publishOne (K : MemberKind k) (type : TypeHandle) (e : Token × Handle k) :
    Build.Keeps (PublishesInto type) (K.publish type e) := by
  intro s
  rcases Build.yields_or_fails (K.publish type e) s with ⟨_, s', hrun⟩ | ⟨error, s', hrun⟩
  · rw [hrun.outcome_snd]
    exact (yields_publishOne hrun).into
  · rw [hrun.outcome_snd, fails_publishOne hrun]
    exact .refl type s

/-- Telling of a populated type only tells. -/
theorem keeps_noticePopulated (h : TypeHandle) :
    Build.Keeps Allocates (Build.noticePopulated h) := by
  unfold Build.noticePopulated
  refine Build.Keeps.bind Build.Keeps.get fun s => ?_
  split
  · exact Build.Keeps.pure ()
  · exact keeps_notice _

theorem succeeds_noticePopulated (h : TypeHandle) :
    Build.Succeeds (Build.noticePopulated h) := by
  unfold Build.noticePopulated
  refine Build.Succeeds.bind Build.Succeeds.get fun s => ?_
  split
  · exact Build.Succeeds.pure ()
  · exact Build.Succeeds.modify _

/-- Publishing the members of all kinds changes that type only, also if it fails half-way. -/
theorem keeps_publish (type : TypeHandle) (staged : Staged) :
    Build.Keeps (PublishesInto type) (Build.publish type staged) := by
  rw [publish_eq]
  refine Build.Keeps.bind Build.Keeps.get fun s => ?_
  split
  · exact Build.Keeps.throw _
  · exact Build.Keeps.bind (Build.Keeps.forM (keeps_publishOne _ type) _) fun _ =>
      Build.Keeps.bind (Build.Keeps.forM (keeps_publishOne _ type) _) fun _ =>
        Build.Keeps.bind (Build.Keeps.forM (keeps_publishOne _ type) _) fun _ =>
          Build.Keeps.forM (keeps_publishOne _ type) _

/-! ## Publication that fails -/

/-- If members with free tokens cannot all be published, two of them have the same token, and some
have been linked by then. The links of the kind are those of the table `t` at the start. -/
theorem fails_publishAll {K : MemberKind k} {type : TypeHandle} {members : List (Token × Handle k)}
    {error : Failure} {s s' : BuildState} {t : LinkTable} (ht : K.table s.links = K.table t)
    (hfree : ∀ e ∈ members, (K.table t).get? e.1 = none)
    (hrun : Build.Fails (members.forM (K.publish type)) s error s') :
    ¬ (members.map Prod.fst).Nodup ∧ K.table s'.links ≠ K.table t := by
  rw [← ht] at hfree ⊢
  constructor
  · intro hnodup
    obtain ⟨_, hyields⟩ := publishAll_of_free type hfree hnodup
    exact hyields.not_fails hrun
  · cases members with
    | nil => cases hrun
    | cons e rest =>
      have hnone := hfree e List.mem_cons_self
      rcases Build.fails_forM_cons.mp hrun with hfirst | ⟨s₁, hfirst, hrest⟩
      · obtain ⟨_, hyields⟩ := publishOne_of_free type hnone
        exact absurd hfirst hyields.not_fails
      · have hlinked := (yields_publishOne hfirst).linked e List.mem_cons_self
        have hgrows := (Build.Keeps.forM (keeps_publishOne K type) rest).of_fails hrest
        have hstill := K.table_extends _ _ hgrows.links _ _ hlinked
        intro heq
        rw [heq, hnone] at hstill
        cases hstill

theorem taken?_eq_none {m : WriteOnce Token (Handle k)} {staged : Array (Token × Handle k)} :
    LinkTable.taken? m staged = none ↔ ∀ e ∈ staged.toList, m.get? e.1 = none := by
  simp [LinkTable.taken?, Array.find?_eq_none]

/-- The tokens of all staged members are free. -/
structure Staged.Free (staged : Staged) (t : LinkTable) : Prop where
  fields : ∀ e ∈ staged.fields.toList, t.fields.get? e.1 = none
  methods : ∀ e ∈ staged.methods.toList, t.methods.get? e.1 = none
  properties : ∀ e ∈ staged.properties.toList, t.properties.get? e.1 = none
  events : ∀ e ∈ staged.events.toList, t.events.get? e.1 = none

theorem firstTaken?_eq_none {t : LinkTable} {staged : Staged} :
    t.firstTaken? staged = none ↔ staged.Free t := by
  unfold LinkTable.firstTaken?
  simp only [Option.orElse_eq_orElse, Option.orElse_eq_or, Option.or_eq_none_iff, taken?_eq_none]
  exact ⟨fun ⟨h₁, h₂, h₃, h₄⟩ => ⟨h₁, h₂, h₃, h₄⟩,
    fun h => ⟨h.fields, h.methods, h.properties, h.events⟩⟩

/-- A publication that fails has changed nothing because a token was taken, or it has linked some
members of a kind that has a token twice. -/
theorem fails_publish {type : TypeHandle} {staged : Staged} {error : Failure} {s s' : BuildState}
    (hrun : (Build.publish type staged).Fails s error s') :
    (¬ staged.Free s.links ∧ s' = s) ∨
    (staged.Free s.links ∧
      (¬ (staged.fields.toList.map Prod.fst).Nodup ∧ s'.links.fields ≠ s.links.fields ∨
        ¬ (staged.methods.toList.map Prod.fst).Nodup ∧ s'.links.methods ≠ s.links.methods ∨
        ¬ (staged.properties.toList.map Prod.fst).Nodup ∧
          s'.links.properties ≠ s.links.properties ∨
        ¬ (staged.events.toList.map Prod.fst).Nodup ∧ s'.links.events ≠ s.links.events)) := by
  rw [publish_eq] at hrun
  rcases Build.fails_bind.mp hrun with hget | ⟨_, _, hget, hrun⟩
  · cases Build.fails_get.mp hget
  obtain ⟨rfl, rfl⟩ := Build.yields_get.mp hget
  split at hrun
  next token htaken =>
    refine .inl ⟨fun hfree => ?_, (Build.fails_throw.mp hrun).2.symm⟩
    rw [firstTaken?_eq_none.mpr hfree] at htaken
    cases htaken
  next htaken =>
    have hfree := firstTaken?_eq_none.mp htaken
    refine .inr ⟨hfree, ?_⟩
    -- while one kind is published, the links of the others stay as they are
    rcases Build.fails_bind.mp hrun with hfail | ⟨_, s₁, hfields, hrun⟩
    · exact .inl (fails_publishAll rfl hfree.fields hfail)
    have h₁ := (yields_publishAll hfields).links
    rcases Build.fails_bind.mp hrun with hfail | ⟨_, s₂, hmethods, hrun⟩
    · exact .inr (.inl (fails_publishAll (by rw [h₁]; rfl) hfree.methods hfail))
    have h₂ := (yields_publishAll hmethods).links
    rcases Build.fails_bind.mp hrun with hfail | ⟨_, s₃, hproperties, hfail⟩
    · exact .inr (.inr (.inl (fails_publishAll (by rw [h₂, h₁]; rfl) hfree.properties hfail)))
    have h₃ := (yields_publishAll hproperties).links
    exact .inr (.inr (.inr (fails_publishAll (by rw [h₃, h₂, h₁]; rfl) hfree.events hfail)))

end ClrImage
