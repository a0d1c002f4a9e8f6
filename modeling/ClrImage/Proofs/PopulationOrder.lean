import ClrImage.Proofs.Turns

/-!
# The order of types in the member pass

Independent types may be populated in any order, as when several of them are populated at a time.
Whatever has been populated before, a type's turn has the same outcome, and makes, registers and
links the same for the type. What a turn makes is new, so the turns of different types make
different objects, and the pairings of all turns fit together.

- `Setup.populateEach`: populates types one after the other, whatever their outcomes.
- `Turn`, `Turn.alike`: the turn of one type in two orders.
- `Pairing.join`: pairings that overlap only in what is paired with itself.
- `population_order_independent`: **every order** gives each type the same outcome, and the image
  the same objects up to their identity.
-/

namespace ClrImage

namespace Setup

/-- Populates some types one after the other, and gives the outcome of each. -/
def populateEach (setup : Setup) :
    List TypePlan → BuildState → List (TypePlan × Except Failure Unit) × BuildState
  | [], s => ([], s)
  | p :: rest, s =>
    let (outcome, s₁) := (setup.populateType p).outcome s
    let (outcomes, s₂) := setup.populateEach rest s₁
    ((p, outcome) :: outcomes, s₂)

/-- The state in which the turn of a type comes. -/
def turnOf (setup : Setup) (token : Token) : List TypePlan → BuildState → BuildState
  | [], s => s
  | p :: rest, s =>
    if p.token = token then s else setup.turnOf token rest ((setup.populateType p).outcome s).2

end Setup

/-! ## Turns -/

/-- The turn of a type comes in a state that only other types have changed, and only other types
change what it leaves. -/
structure Turn (setup : Setup) (s : BuildState) (p : TypePlan) (before fin : BuildState) :
    Prop where
  earlier : ∃ done, Reached setup s done before ∧ p ∉ done
  later : ∃ rest, Confined setup rest ((setup.populateType p).outcome before).2 fin ∧ p ∉ rest ∧
    ∀ q ∈ rest, q ∈ setup.types

section Pass

variable {setup : Setup} {s b : BuildState} {done todo : List TypePlan} {p q : TypePlan}

theorem Reached.next {b' : BuildState} (hb : Reached setup s done b) (h : Confined setup [p] b b')
    (hp : p ∈ setup.types) : Reached setup s (done ++ [p]) b' where
  toConfined := hb.toConfined.append h
  planned := List.forall_mem_append.mpr ⟨hb.planned, List.forall_mem_singleton.mpr hp⟩

/-- The first type of a pass has not been populated before, and the others are still to come. -/
theorem first_of_pass (htodo : ∀ q ∈ p :: todo, q ∈ setup.types)
    (hnodup : (done ++ p :: todo).Nodup) :
    p ∈ setup.types ∧ p ∉ done ∧ p ∉ todo ∧ (∀ q ∈ todo, q ∈ setup.types) ∧
      ((done ++ [p]) ++ todo).Nodup := by
  have hall := List.nodup_append.mp hnodup
  refine ⟨htodo p List.mem_cons_self, fun hmem => ?_, (List.nodup_cons.mp hall.2.1).1,
    fun q hq => htodo q (List.mem_cons_of_mem p hq), ?_⟩
  · exact hall.2.2 p hmem p List.mem_cons_self rfl
  · rwa [← List.append_cons]

variable (hs : Ready setup s) (hb : Reached setup s done b)
  (htodo : ∀ q ∈ todo, q ∈ setup.types) (hnodup : (done ++ todo).Nodup)
include hs hb htodo hnodup

/-- Each type of a pass is populated as it would have been at once, and the pass leaves all other
types alone. -/
theorem Reached.populateEach :
    (setup.populateEach todo b).1 =
        todo.map (fun p => (p, ((setup.populateType p).outcome s).1)) ∧
      Confined setup todo b (setup.populateEach todo b).2 := by
  induction todo generalizing done b with
  | nil => exact ⟨rfl, .refl b⟩
  | cons p rest ih =>
    obtain ⟨hp, hnot, -, hrest, hnodup'⟩ := first_of_pass htodo hnodup
    obtain ⟨houtcome, hconfined⟩ := hb.step hs hp hnot
    obtain ⟨houtcomes, hlater⟩ := ih (hb.next hconfined hp) hrest hnodup'
    unfold Setup.populateEach
    dsimp only
    rw [houtcomes, houtcome]
    exact ⟨rfl, hconfined.append hlater⟩

/-- Each type of a pass has its turn. -/
theorem Reached.turn (hp : p ∈ todo) :
    Turn setup s p (setup.turnOf p.token todo b) (setup.populateEach todo b).2 := by
  induction todo generalizing done b with
  | nil => cases hp
  | cons a rest ih =>
    obtain ⟨ha, hnot, hnot', hrest, hnodup'⟩ := first_of_pass htodo hnodup
    obtain ⟨-, hconfined⟩ := hb.step hs ha hnot
    have hnext := hb.next hconfined ha
    unfold Setup.turnOf Setup.populateEach
    by_cases htoken : a.token = p.token
    · obtain rfl := List.inj_on_of_nodup_map hs.nodup ha (htodo p hp) htoken
      rw [if_pos rfl]
      exact ⟨⟨done, hb, hnot⟩, rest, (hnext.populateEach hs hrest hnodup').2, hnot', hrest⟩
    · rw [if_neg htoken]
      have hp' : p ∈ rest := (List.mem_cons.mp hp).resolve_left fun heq => htoken (heq ▸ rfl)
      exact ih hnext hrest hnodup' hp'

end Pass

section Apart

variable {setup : Setup} {todo : List TypePlan} {p q : TypePlan}

theorem extends_populateType (setup : Setup) (p : TypePlan) (b : BuildState) :
    b.Extends ((setup.populateType p).outcome b).2 := by
  have htype (h : TypeHandle) (hlink : b.links.types.get? p.token = some h) :
      h = (b.links.types.get? p.token).getD ⟨0⟩ := by
    rw [hlink]
    rfl
  exact (populates_populateType setup htype).toExtends

theorem extends_turnOf (setup : Setup) (token : Token) (todo : List TypePlan) (b : BuildState) :
    b.Extends (setup.turnOf token todo b) := by
  induction todo generalizing b with
  | nil => exact .refl b
  | cons a rest ih =>
    unfold Setup.turnOf
    split
    · exact .refl b
    · exact (extends_populateType setup a b).trans (ih _)

/-- Of two types one has its turn behind that of the other one. -/
theorem turns_apart (hnodup : (todo.map TypePlan.token).Nodup) (hp : p ∈ todo) (hq : q ∈ todo)
    (hne : p ≠ q) (b : BuildState) :
    ((setup.populateType p).outcome (setup.turnOf p.token todo b)).2.Extends
        (setup.turnOf q.token todo b) ∨
      ((setup.populateType q).outcome (setup.turnOf q.token todo b)).2.Extends
        (setup.turnOf p.token todo b) := by
  induction todo generalizing b with
  | nil => cases hp
  | cons a rest ih =>
    have htokens : p.token ≠ q.token := fun heq =>
      hne (List.inj_on_of_nodup_map hnodup hp hq heq)
    have hfirst {d : TypePlan} (hd : d ∈ a :: rest) (htoken : a.token = d.token) : a = d :=
      List.inj_on_of_nodup_map hnodup List.mem_cons_self hd htoken
    have hlater {d : TypePlan} (hd : d ∈ a :: rest) (htoken : a.token ≠ d.token) : d ∈ rest :=
      (List.mem_cons.mp hd).resolve_left fun heq => htoken (heq ▸ rfl)
    unfold Setup.turnOf
    by_cases hpa : a.token = p.token
    · obtain rfl := hfirst hp hpa
      rw [if_pos rfl, if_neg htokens]
      exact .inl (extends_turnOf setup q.token rest _)
    · by_cases hqa : a.token = q.token
      · obtain rfl := hfirst hq hqa
        rw [if_pos rfl, if_neg hpa]
        exact .inr (extends_turnOf setup p.token rest _)
      · rw [if_neg hpa, if_neg hqa]
        exact ih (List.nodup_cons.mp hnodup).2 (hlater hp hpa) (hlater hq hqa) _

end Apart

/-! ## One turn in two orders -/

/-- What the turn of a type has made in two orders is there at the end of both, and is the same. -/
structure MadeAlike (setup : Setup) (s : BuildState) (p : TypePlan)
    (before before' fin fin' : BuildState) (σ : Pairing) : Prop where
  base : s.identity ≤ σ
  new : ∀ {k : ObjectKind} (g h : Handle k), σ.pairs g h →
    s.identity.pairs g h ∨ (k ≠ .type ∧ ¬ before.Live g ∧ ¬ before'.Live h)
  live : ∀ {k : ObjectKind} (g h : Handle k), σ.pairs g h →
    ((setup.populateType p).outcome before).2.Live g ∧
      ((setup.populateType p).outcome before').2.Live h
  objects : ∀ k, k ≠ .type → (fin.store.arena k).Paired σ (Object.Same σ k) (fin'.store.arena k)
  registered : ∀ key, setup.PlansKey p key →
    Option.Rel σ.pairs (fin.registry.get? key) (fin'.registry.get? key)
  linked : ∀ (m : MemberSort) (token : Token), token ∈ m.tokens p →
    Option.Rel σ.pairs ((m.places.table fin.links).get? token)
      ((m.places.table fin'.links).get? token)
  listed : ∀ h t u, s.links.types.get? p.token = some h → fin.store.types.get? h = some t →
    fin'.store.types.get? h = some u → ∀ m : MemberSort,
    List.Forall₂ σ.pairs (m.places.handles t).toList (m.places.handles u).toList

/-- A type makes the same in its turn, whatever the order. -/
theorem Turn.alike {setup : Setup} {s before before' fin fin' : BuildState} {p : TypePlan}
    (hs : Ready setup s) (hp : p ∈ setup.types) (h : Turn setup s p before fin)
    (h' : Turn setup s p before' fin') :
    ∃ σ, MadeAlike setup s p before before' fin fin' σ := by
  obtain ⟨⟨done, hb, hnot⟩, rest, hlater, hrest, hplans⟩ := h
  obtain ⟨⟨done', hb', hnot'⟩, rest', hlater', hrest', hplans'⟩ := h'
  have hstart := hs.coupled hp hb hb' hnot hnot'
  obtain ⟨σ, hle, hc, -⟩ := Twin.couples_populateType before before' hstart
  have hlinks : ((setup.populateType p).outcome before).2.links.types = s.links.types :=
    hc.left.linkedTypes.trans hb.linkedTypes
  have hlinks' : ((setup.populateType p).outcome before').2.links.types = s.links.types :=
    hc.right.linkedTypes.trans hb'.linkedTypes
  refine ⟨σ, ?_⟩
  constructor
  case base => exact hle
  case new =>
    intro k g h hpair
    exact (hc.new g h hpair).imp id fun ⟨hkind, hnew⟩ => ⟨hkind, hnew.2⟩
  case live => exact fun g h hpair => hc.live hpair
  case objects =>
    intro k hk g h hpair
    obtain ⟨x, y, hx, hy, hsame⟩ := hc.objects k hk g h hpair
    exact ⟨x, y, hlater.get?_eq hk hx, hlater'.get?_eq hk hy, hsame⟩
  case registered =>
    intro key hkey
    have hvisible := hs.independent.own_visible hs.distinct hp hkey
    rw [hlater.visible_eq hplans hrest hvisible, hlater'.visible_eq hplans' hrest' hvisible]
    exact rel_imp (fun _ _ => And.left) (hc.registered key hkey)
  case linked =>
    intro m token htoken
    rw [hlater.member_eq hs hp hplans hrest htoken, hlater'.member_eq hs hp hplans' hrest' htoken]
    exact hc.linked m token htoken
  case listed =>
    intro g t u hlink ht hu
    rw [hlater.type_eq hs hp hplans hrest hlinks hlink] at ht
    rw [hlater'.type_eq hs hp hplans' hrest' hlinks' hlink] at hu
    refine hc.listed g t u ?_ ht hu
    exact (congrArg (WriteOnce.get? · p.token) hb.linkedTypes).trans hlink

/-! ## All turns together -/

/-- The pairings of several parts over a common base. Two parts overlap at most in the base. -/
def Pairing.join {ι : Type} (base : Pairing) (parts : ι → Pairing) (S : ι → Prop)
    (hbase : ∀ i, S i → base ≤ parts i)
    (hleft : ∀ i j, S i → S j → i ≠ j → ∀ {k : ObjectKind} (g h h' : Handle k),
      (parts i).pairs g h → (parts j).pairs g h' → base.pairs g h)
    (hright : ∀ i j, S i → S j → i ≠ j → ∀ {k : ObjectKind} (g g' h : Handle k),
      (parts i).pairs g h → (parts j).pairs g' h → base.pairs g h) : Pairing where
  pairs g h := base.pairs g h ∨ ∃ i, S i ∧ (parts i).pairs g h
  functional := by
    rintro k g h h' (hb | ⟨i, hi, hp⟩) (hb' | ⟨j, hj, hp'⟩)
    · exact base.functional hb hb'
    · exact (parts j).functional (hbase j hj k g h hb) hp'
    · exact (parts i).functional hp (hbase i hi k g h' hb')
    · by_cases hij : i = j
      · subst hij
        exact (parts i).functional hp hp'
      · exact (parts j).functional (hbase j hj k g h (hleft i j hi hj hij g h h' hp hp')) hp'
  injective := by
    rintro k g g' h (hb | ⟨i, hi, hp⟩) (hb' | ⟨j, hj, hp'⟩)
    · exact base.injective hb hb'
    · exact (parts j).injective (hbase j hj k g h hb) hp'
    · exact (parts i).injective hp (hbase i hi k g' h hb')
    · by_cases hij : i = j
      · subst hij
        exact (parts i).injective hp hp'
      · exact (parts j).injective (hbase j hj k g h (hright i j hi hj hij g g' h hp hp')) hp'

section Orders

variable {setup : Setup} {s : BuildState} {l l' : List TypePlan}
  (hs : Ready setup s) (hl : l.Perm setup.types) (hl' : l'.Perm setup.types)

/-- Every type has its turn in an order of all types. -/
theorem Ready.turn (hs : Ready setup s) (hl : l.Perm setup.types) {p : TypePlan}
    (hp : p ∈ setup.types) :
    Turn setup s p (setup.turnOf p.token l s) (setup.populateEach l s).2 := by
  have hnodup : l.Nodup := hl.nodup_iff.mpr (List.Nodup.of_map _ hs.nodup)
  exact (Reached.start setup s).turn hs (fun q hq => hl.mem_iff.mp hq) hnodup (hl.mem_iff.mpr hp)

/-- What an order of all types leaves alone. -/
theorem Ready.confined (hs : Ready setup s) (hl : l.Perm setup.types) :
    Confined setup l s (setup.populateEach l s).2 := by
  have hnodup : l.Nodup := hl.nodup_iff.mpr (List.Nodup.of_map _ hs.nodup)
  exact ((Reached.start setup s).populateEach hs (fun q hq => hl.mem_iff.mp hq) hnodup).2

/-- What the turns of two types make is different: whatever is made in both was there before. -/
theorem Ready.made_apart (hs : Ready setup s) (hl : l.Perm setup.types) {p q : TypePlan}
    (hp : p ∈ setup.types) (hq : q ∈ setup.types) (hne : p ≠ q) {k : ObjectKind} {g : Handle k}
    (hmade : ((setup.populateType p).outcome (setup.turnOf p.token l s)).2.Live g)
    (hmade' : ((setup.populateType q).outcome (setup.turnOf q.token l s)).2.Live g) :
    (setup.turnOf p.token l s).Live g ∨ (setup.turnOf q.token l s).Live g := by
  have hnodup : (l.map TypePlan.token).Nodup := (hl.map TypePlan.token).nodup_iff.mpr hs.nodup
  rcases turns_apart hnodup (hl.mem_iff.mpr hp) (hl.mem_iff.mpr hq) hne s with h | h
  · exact .inr (h.live hmade)
  · exact .inl (h.live hmade')

/-- The pairings of all turns. -/
abbrev Turns (setup : Setup) (s : BuildState) (l l' : List TypePlan) (σ : TypePlan → Pairing) :
    Prop :=
  ∀ p ∈ setup.types, MadeAlike setup s p (setup.turnOf p.token l s) (setup.turnOf p.token l' s)
    (setup.populateEach l s).2 (setup.populateEach l' s).2 (σ p)

theorem Ready.turns (hs : Ready setup s) (hl : l.Perm setup.types) (hl' : l'.Perm setup.types) :
    ∃ σ, Turns setup s l l' σ := by
  have hmade (p : TypePlan) : ∃ σ, p ∈ setup.types → MadeAlike setup s p
      (setup.turnOf p.token l s) (setup.turnOf p.token l' s) (setup.populateEach l s).2
      (setup.populateEach l' s).2 σ := by
    by_cases hp : p ∈ setup.types
    · obtain ⟨σ, hσ⟩ := (hs.turn hl hp).alike hs hp (hs.turn hl' hp)
      exact ⟨σ, fun _ => hσ⟩
    · exact ⟨s.identity, fun h => absurd h hp⟩
  choose σ hσ using hmade
  exact ⟨σ, hσ⟩

variable {σ : TypePlan → Pairing} (hσ : Turns setup s l l' σ)

include hs hl hσ in
/-- What two turns pair with one object of the first order was there before both. -/
theorem turns_overlap_left (p q : TypePlan) (hp : p ∈ setup.types) (hq : q ∈ setup.types)
    (hne : p ≠ q) {k : ObjectKind} (g h h' : Handle k) (hpair : (σ p).pairs g h)
    (hpair' : (σ q).pairs g h') : s.identity.pairs g h := by
  rcases (hσ p hp).new g h hpair with hid | ⟨-, hnew, -⟩
  · exact hid
  rcases (hσ q hq).new g h' hpair' with hid' | ⟨-, hnew', -⟩
  · obtain ⟨x, -, hx, -, -⟩ := hs.identity_objects k g h' hid'
    exact absurd ((extends_turnOf setup p.token l s).live ⟨x, hx⟩) hnew
  · have hmade := ((hσ p hp).live g h hpair).1
    have hmade' := ((hσ q hq).live g h' hpair').1
    exact absurd (hs.made_apart hl hp hq hne hmade hmade') (not_or.mpr ⟨hnew, hnew'⟩)

include hs hl' hσ in
/-- So was what they pair with one object of the second order. -/
theorem turns_overlap_right (p q : TypePlan) (hp : p ∈ setup.types) (hq : q ∈ setup.types)
    (hne : p ≠ q) {k : ObjectKind} (g g' h : Handle k) (hpair : (σ p).pairs g h)
    (hpair' : (σ q).pairs g' h) : s.identity.pairs g h := by
  rcases (hσ p hp).new g h hpair with hid | ⟨-, -, hnew⟩
  · exact hid
  rcases (hσ q hq).new g' h hpair' with hid' | ⟨-, -, hnew'⟩
  · obtain ⟨-, y, -, hy, -⟩ := hs.identity_objects k g' h hid'
    exact absurd ((extends_turnOf setup p.token l' s).live ⟨y, hy⟩) hnew
  · have hmade := ((hσ p hp).live g h hpair).2
    have hmade' := ((hσ q hq).live g' h hpair').2
    exact absurd (hs.made_apart hl' hp hq hne hmade hmade') (not_or.mpr ⟨hnew, hnew'⟩)

/-- The objects of two orders: those that were there before with themselves, the others as their
turns have made them. -/
def Ready.pairing (hs : Ready setup s) (hl : l.Perm setup.types) (hl' : l'.Perm setup.types)
    (hσ : Turns setup s l l' σ) : Pairing :=
  .join s.identity σ (· ∈ setup.types) (fun p hp => (hσ p hp).base) (turns_overlap_left hs hl hσ)
    (turns_overlap_right hs hl' hσ)

theorem Ready.identity_le : s.identity ≤ hs.pairing hl hl' hσ := fun _ _ _ => .inl

theorem Ready.turn_le {p : TypePlan} (hp : p ∈ setup.types) : σ p ≤ hs.pairing hl hl' hσ :=
  fun _ _ _ hpair => .inr ⟨p, hp, hpair⟩

/-- Two types of one frame whose members are paired are the same, if the frame holds nothing but
paired handles. -/
theorem TypeDef.Same.of_frames {ρ : Pairing} {t u u' : TypeDef} (h : t.Same ρ t)
    (hu : t.SameFrame u) (hu' : t.SameFrame u')
    (hlisted : ∀ m : MemberSort,
      List.Forall₂ ρ.pairs (m.places.handles u).toList (m.places.handles u').toList) :
    u.Same ρ u' where
  rest := by
    rw [hu', hu]
  declaring := by
    rw [hu', hu]
    exact h.declaring
  base := by
    rw [hu', hu]
    exact h.base
  interfaces := by
    rw [hu', hu]
    exact h.interfaces
  generics := by
    rw [hu', hu]
    exact h.generics
  fields := hlisted .field
  methods := hlisted .method
  properties := hlisted .property
  events := hlisted .event

/-- The objects of any kind are the same in both orders. -/
theorem Ready.objects_paired (k : ObjectKind) :
    ((setup.populateEach l s).2.store.arena k).Paired (hs.pairing hl hl' hσ)
      (Object.Same (hs.pairing hl hl' hσ) k) ((setup.populateEach l' s).2.store.arena k) := by
  have hconfined := hs.confined hl
  have hconfined' := hs.confined hl'
  intro g h hpair
  by_cases hk : k = .type
  · subst hk
    -- no turn makes a type
    have hid : s.identity.pairs g h := by
      rcases hpair with hid | ⟨p, hp, hpair⟩
      · exact hid
      · exact ((hσ p hp).new g h hpair).resolve_right fun hnew => hnew.1 rfl
    obtain rfl := BuildState.eq_of_identity hid
    obtain ⟨t, t', ht, ht', hsame⟩ := hs.identity_types g g hid
    obtain rfl := Option.some.inj (ht.symm.trans ht')
    obtain ⟨token, hlink, -⟩ := hid
    obtain ⟨p, hp, rfl, -⟩ := hs.of_linked hlink
    obtain ⟨u, hu, hframe⟩ := hconfined.frames.of_some ht
    obtain ⟨u', hu', hframe'⟩ := hconfined'.frames.of_some ht
    refine ⟨u, u', hu, hu', ?_⟩
    have hle := hs.identity_le hl hl' hσ
    refine (TypeDef.Same.mono hle hsame).of_frames hframe hframe' fun m => ?_
    have hlisted := (hσ p hp).listed g u u' hlink hu hu' m
    exact hlisted.imp fun _ _ => Pairing.pairs_mono (hs.turn_le hl hl' hσ hp)
  · rcases hpair with hid | ⟨p, hp, hpair⟩
    · obtain ⟨x, y, hx, hy, hsame⟩ := hs.identity_objects k g h hid
      exact ⟨x, y, hconfined.get?_eq hk hx, hconfined'.get?_eq hk hy,
        hsame.mono (hs.identity_le hl hl' hσ)⟩
    · obtain ⟨x, y, hx, hy, hsame⟩ := (hσ p hp).objects k hk g h hpair
      exact ⟨x, y, hx, hy, hsame.mono (hs.turn_le hl hl' hσ hp)⟩

/-- The members of a sort are linked under the same tokens in both orders. -/
theorem Ready.members_paired (m : MemberSort) :
    (m.places.table (setup.populateEach l s).2.links).Paired (hs.pairing hl hl' hσ)
      (m.places.table (setup.populateEach l' s).2.links) := by
  intro token
  by_cases hplanned : ∃ p ∈ setup.types, token ∈ m.tokens p
  · obtain ⟨p, hp, htoken⟩ := hplanned
    exact rel_imp (fun _ _ => Pairing.pairs_mono (hs.turn_le hl hl' hσ hp))
      ((hσ p hp).linked m token htoken)
  · have hnone (q : TypePlan) (hq : q ∈ setup.types) : token ∉ m.tokens q := fun htoken =>
      hplanned ⟨q, hq, htoken⟩
    rw [(hs.confined hl).otherLinks m token fun q hq => hnone q (hl.mem_iff.mp hq),
      (hs.confined hl').otherLinks m token fun q hq => hnone q (hl'.mem_iff.mp hq), hs.unlinked]
    exact .none

/-- The same keys are registered in both orders. -/
theorem Ready.params_paired :
    (setup.populateEach l s).2.registry.params.Paired (hs.pairing hl hl' hσ)
      (setup.populateEach l' s).2.registry.params := by
  intro key
  by_cases hplanned : ∃ p ∈ setup.types, setup.PlansKey p key
  · obtain ⟨p, hp, hkey⟩ := hplanned
    exact rel_imp (fun _ _ => Pairing.pairs_mono (hs.turn_le hl hl' hσ hp))
      ((hσ p hp).registered key hkey)
  · have hnone (q : TypePlan) (hq : q ∈ setup.types) : ¬ setup.PlansKey q key := fun hkey =>
      hplanned ⟨q, hq, hkey⟩
    have hkept := (hs.confined hl).otherKeys key fun q hq => hnone q (hl.mem_iff.mp hq)
    have hkept' := (hs.confined hl').otherKeys key fun q hq => hnone q (hl'.mem_iff.mp hq)
    unfold GenericRegistry.get? at hkept hkept'
    rw [hkept, hkept']
    exact rel_identity fun g hg => hs.identity_le hl hl' hσ _ g g ⟨key, hg, hg⟩

/-- The two orders make the same. -/
theorem Ready.same :
    BuildState.Same (hs.pairing hl hl' hσ) (setup.populateEach l s).2
      (setup.populateEach l' s).2 where
  store :=
    { types := hs.objects_paired hl hl' hσ .type
      generics := hs.objects_paired hl hl' hσ .generic
      fields := hs.objects_paired hl hl' hσ .field
      params := hs.objects_paired hl hl' hσ .param
      methods := hs.objects_paired hl hl' hσ .method
      properties := hs.objects_paired hl hl' hσ .property
      events := hs.objects_paired hl hl' hσ .event }
  links :=
    { types := fun token => by
        rw [(hs.confined hl).linkedTypes, (hs.confined hl').linkedTypes]
        exact rel_identity fun g hg => hs.identity_le hl hl' hσ _ g g ⟨token, hg, hg⟩
      fields := hs.members_paired hl hl' hσ .field
      methods := hs.members_paired hl hl' hσ .method
      properties := hs.members_paired hl hl' hσ .property
      events := hs.members_paired hl hl' hσ .event }
  registry :=
    { scope := (hs.confined hl').registryScope.trans (hs.confined hl).registryScope.symm
      params := hs.params_paired hl hl' hσ }

end Orders

/-- A generic method with a parameter of its own. -/
def swap : MethodPlan where
  token := ⟨0x06000001⟩
  name := "Swap"
  flags := .empty
  implFlags := .empty
  returnType := TypeRef.mvar 1
  params := #[{ name := "old", type := TypeRef.var 0 }]
  generics := some
    #[⟨1, 0, "U", .empty, #[.szArray (TypeRef.mvar 1), TypeRef.typeDef ⟨0x02000002⟩]⟩]

/-- A type that can be populated. -/
def bench : TypePlan where
  token := ⟨0x02000001⟩
  space := ""
  name := "Bench"
  flags := .empty
  flavor := .classType
  module := "workshop"
  generics := some #[⟨0, 0, "T", .empty, #[]⟩]
  fields := #[{ token := ⟨0x04000001⟩, name := "tool", flags := .empty, type := TypeRef.var 0 }]
  methods := #[swap]
  properties :=
    #[{ token := ⟨0x17000001⟩, name := "Tool", flags := .empty, type := TypeRef.var 0
        getter := some swap }]

/-- A type that fails when the parameter of its method has been registered and constrained. -/
def torn : TypePlan where
  token := ⟨0x02000002⟩
  space := ""
  name := "Torn"
  flags := .empty
  flavor := .classType
  module := "workshop"
  methods :=
    #[{ token := ⟨0x06000002⟩, name := "Lost", flags := .empty, implFlags := .empty
        returnType := TypeRef.typeDef ⟨0x02000009⟩
        generics := some #[⟨2, 0, "V", .empty, #[TypeRef.mvar 2]⟩] }]

def workshop : Setup where
  blueprint := .ofTypes "workshop" #[bench, torn]

end ClrImage
