import ClrImage.Proofs.Completeness
import ClrImage.Proofs.Shapes
import ClrImage.Proofs.SourcedBuilds

/-!
# Images are closed

Signatures do not keep alive what they name. An image does: whatever a signature in it names, at any
depth, is one of the image's own types or parameters. And a signature names what its reference in
the plan stands for, read against the tables of the image, so references to one key share one
parameter.

- `TypeDef.Carries`, `Image.Carries`: the signatures in an image.
- `Image.Owns`: what an atom of a signature names belongs to the image.
- `signatures_closed`: every signature of every image is closed, and comes from the plans.
-/

namespace ClrImage

/-! ## The signatures in an image -/

/-- The signatures of a type: in its hierarchy, its members and the stubs of its methods. -/
inductive TypeDef.Carries (store : Store) (t : TypeDef) : Signature → Prop
  | base {sig : Signature} (mem : t.base = some sig) : Carries store t sig
  | interface {sig : Signature} (mem : sig ∈ t.interfaces) : Carries store t sig
  | field {h : FieldHandle} {d : FieldDef} (listed : h ∈ t.fields)
      (object : store.fields.get? h = some d) : Carries store t d.type
  | returnType {h : MethodHandle} {d : MethodDef} (listed : h ∈ t.methods)
      (object : store.methods.get? h = some d) : Carries store t d.signature.returnType
  | paramType {h : MethodHandle} {d : MethodDef} {sig : Signature} (listed : h ∈ t.methods)
      (object : store.methods.get? h = some d) (mem : sig ∈ d.signature.params) :
      Carries store t sig
  | local {h : MethodHandle} {d : MethodDef} {b : Body} {sig : Signature} (listed : h ∈ t.methods)
      (object : store.methods.get? h = some d) (body : d.body = some b) (mem : sig ∈ b.locals) :
      Carries store t sig
  | operand {h : MethodHandle} {d : MethodDef} {b : Body} {i : Instruction} {sig : Signature}
      (listed : h ∈ t.methods) (object : store.methods.get? h = some d) (body : d.body = some b)
      (mem : i ∈ b.code) (operand : i.operand = .type sig) : Carries store t sig
  | property {h : PropertyHandle} {d : PropertyDef} (listed : h ∈ t.properties)
      (object : store.properties.get? h = some d) : Carries store t d.type
  | event {h : EventHandle} {d : EventDef} (listed : h ∈ t.events)
      (object : store.events.get? h = some d) : Carries store t d.type

namespace Image

/-- The signatures in an image, each with the type or the method in whose plan it has its place:
those of its types, and the constraints of all parameters that it registers or lists. -/
inductive Carries (image : Image) : GenericOwner → Signature → Prop
  | ofType {o : TypeHandle} {t : TypeDef} {sig : Signature} (mem : o ∈ image.types)
      (object : image.store.types.get? o = some t) (carried : t.Carries image.store sig) :
      Carries image (.type t.token) sig
  | constraint {h : GenericHandle} {x : GenericParam} {sig : Signature}
      (mem : h ∈ image.generics ∨ image.Lists h) (object : image.store.generics.get? h = some x)
      (attached : sig ∈ x.constraints) : Carries image x.declaredBy sig

/-- What an atom names is there, and it is the image's own: a type is the one that the image has
under its token and lists, as a value type exactly if it has that flavor, and a parameter is one of
the image's. -/
def Owns (image : Image) : SigAtom → Prop
  | .primitive _ => True
  | .classType h => ∃ t, image.store.types.get? h = some t ∧ image.type? t.token = some h ∧
    h ∈ image.types ∧ t.flavor ≠ .valueType
  | .valueType h => ∃ t, image.store.types.get? h = some t ∧ image.type? t.token = some h ∧
    h ∈ image.types ∧ t.flavor = .valueType
  | .var g | .mvar g => (∃ x, image.store.generics.get? g = some x) ∧ g ∈ image.generics

end Image

/-! ## Signatures and their references -/

/-- A stub names nothing but the return type of its method. -/
theorem stub_locals {store : Store} {returnType sig : Signature}
    (h : sig ∈ (stub store returnType).locals) : sig = returnType := by
  unfold stub Body.ofCode at h
  split at h <;> simp_all

theorem stub_operand {store : Store} {returnType sig : Signature} {i : Instruction}
    (hi : i ∈ (stub store returnType).code) (h : i.operand = .type sig) : sig = returnType := by
  unfold stub Body.ofCode at hi
  split at hi <;> simp only [List.mem_cons, List.not_mem_nil, or_false] at hi
  · subst hi
    cases h
  · rcases hi with rfl | rfl | rfl | rfl
    · cases h
    · exact (Operand.type.inj h).symm
    · cases h
    · cases h
  · rcases hi with rfl | rfl
    · cases h
    · cases h

/-- Whatever a type carries was resolved from its plan. -/
theorem TypeSourced.of_carries {scope : Scope} {p : TypePlan} {t : TypeDef} {sig : Signature}
    (ht : TypeSourced scope p t) (hsig : t.Carries scope.store sig) :
    ∃ r, p.Mentions (.type p.token) r ∧ scope.resolve r = .ok sig := by
  -- all signatures of a method come from its return type and its parameters
  have hmethod {h : MethodHandle} {d : MethodDef} (hh : h ∈ t.methods)
      (hd : scope.store.methods.get? h = some d) : ∃ m ∈ p.methods, MethodMirrored scope m d := by
    obtain ⟨_, m, hm, -, d', hd', hmirrored⟩ := ht.members .method h hh
    obtain rfl : d = d' := Option.some.inj (hd.symm.trans hd')
    exact ⟨m, hm, hmirrored⟩
  have hbody {d : MethodDef} {m : MethodPlan} {b : Body} (hm : MethodMirrored scope m d)
      (hb : d.body = some b) : b = stub scope.store d.signature.returnType := by
    rw [hm.body] at hb
    split at hb
    · exact (Option.some.inj hb).symm
    · cases hb
  cases hsig with
  | base hmem =>
    obtain ⟨r, hr, hresolve⟩ := ht.base sig hmem
    exact ⟨r, .base hr, hresolve⟩
  | interface hmem =>
    obtain ⟨r, hr, hresolve⟩ := ht.interfaces sig hmem
    exact ⟨r, .interface hr, hresolve⟩
  | field hh hd =>
    obtain ⟨_, f, hf, -, d', hd', hresolve⟩ := ht.members .field _ hh
    obtain rfl := Option.some.inj (hd.symm.trans hd')
    exact ⟨f.type, .field hf, hresolve⟩
  | returnType hh hd =>
    obtain ⟨m, hm, hmirrored⟩ := hmethod hh hd
    exact ⟨m.returnType, .returnType hm, hmirrored.returnType⟩
  | paramType hh hd hmem =>
    obtain ⟨m, hm, hmirrored⟩ := hmethod hh hd
    obtain ⟨r, hr, hresolve⟩ := exists_of_forall₂ hmirrored.paramTypes.flip hmem
    obtain ⟨q, hq, rfl⟩ := List.mem_map.mp hr
    exact ⟨q.type, .paramType hm (Array.mem_toList_iff.mp hq), hresolve⟩
  | «local» hh hd hb hmem =>
    obtain ⟨m, hm, hmirrored⟩ := hmethod hh hd
    obtain rfl := hbody hmirrored hb
    obtain rfl := stub_locals hmem
    exact ⟨m.returnType, .returnType hm, hmirrored.returnType⟩
  | operand hh hd hb hmem hoperand =>
    obtain ⟨m, hm, hmirrored⟩ := hmethod hh hd
    obtain rfl := hbody hmirrored hb
    obtain rfl := stub_operand hmem hoperand
    exact ⟨m.returnType, .returnType hm, hmirrored.returnType⟩
  | property hh hd =>
    obtain ⟨_, q, hq, -, d', hd', hresolve⟩ := ht.members .property _ hh
    obtain rfl := Option.some.inj (hd.symm.trans hd')
    exact ⟨q.type, .property hq, hresolve⟩
  | event hh hd =>
    obtain ⟨_, e, he, -, d', hd', hresolve⟩ := ht.members .event _ hh
    obtain rfl := Option.some.inj (hd.symm.trans hd')
    exact ⟨e.type, .event he, hresolve⟩

/-! ## Closure -/

/-- What an atom of a reference stands for belongs to the image. -/
theorem Sourced.owns {setup : Setup} {s : BuildState} (h : Sourced setup s) {topLevel : Token}
    {a : RefAtom} {b : SigAtom} (hab : (s.scope topLevel).Names a b) : (setup.image s).Owns b := by
  have htype {token : Token} {o : TypeHandle} {t : TypeDef}
      (hlink : s.links.types.get? token = some o) (ht : s.store.types.get? o = some t) :
      s.links.types.get? t.token = some o ∧ o ∈ s.declared := by
    obtain ⟨p, hp, hpo⟩ := h.known o t ht
    refine ⟨by rw [(h.of_type hp hpo ht).token, hpo], ?_⟩
    obtain ⟨o', ho', hlink'⟩ := exists_of_forall₂ h.listed hp
    obtain rfl := Option.some.inj (hpo.symm.trans hlink')
    exact Array.mem_toList_iff.mp ho'
  have hparam {key : GenericKey} {g : GenericHandle} (hkey : s.registry.get? key = some g) :
      (∃ x, s.store.generics.get? g = some x) ∧ g ∈ s.registry.toList :=
    ⟨h.closed key g hkey, GenericRegistry.mem_toList.mpr ⟨key, hkey⟩⟩
  cases a <;> cases b <;> simp only [Scope.Names] at hab
  case primitive.primitive => trivial
  case typeDef.classType =>
    obtain ⟨hlink, t, ht, hflavor⟩ := hab
    obtain ⟨htoken, hlisted⟩ := htype hlink ht
    exact ⟨t, ht, htoken, hlisted, hflavor⟩
  case typeDef.valueType =>
    obtain ⟨hlink, t, ht, hflavor⟩ := hab
    obtain ⟨htoken, hlisted⟩ := htype hlink ht
    exact ⟨t, ht, htoken, hlisted, hflavor⟩
  case var.var => exact hparam hab
  case mvar.mvar => exact hparam hab

/-- Every signature in every image that a build gives is closed: all that it names, at any depth,
belongs to the image. It is built like a reference in the plan of the type or method that carries
it, from what the atoms of the reference stand for in the image. In particular an index stands for
the one parameter that the image's registry holds for it below the plan's top-level type. All this
holds whether types are processed one after the other or side by side, and for every schedule. -/
theorem signatures_closed {setup : Setup} (hresolver : setup.resolver = Resolver.default)
    {σ : Schedules} {image : Image} {s : BuildState} (hrun : setup.runBy σ = (.ok image, s))
    {owner : GenericOwner} {sig : Signature} (hsig : image.Carries owner sig) :
    (∀ a ∈ sig.atoms, image.Owns a) ∧
    ∃ p ∈ setup.types, ∃ r, p.Mentions owner r ∧
      r.Rel (image.scope (setup.blueprint.topLevel p)).Names sig := by
  obtain ⟨-, s₁, -, -, hgrounded, rfl⟩ := grounded_of_runBy hresolver hrun
  have hsourced := hgrounded.toSourced
  obtain ⟨p, hp, r, hr, hresolve⟩ : ∃ p ∈ setup.types, ∃ r, p.Mentions owner r ∧
      (s₁.scope (setup.blueprint.topLevel p)).resolve r = .ok sig := by
    cases hsig with
    | @ofType o t _ hmem ht hcarried =>
      obtain ⟨p, hp, hlink⟩ := hsourced.known o t ht
      have hplanned := hsourced.of_type hp hlink ht
      obtain ⟨r, hr, hresolve⟩ := hplanned.of_carries hcarried
      exact ⟨p, hp, r, hplanned.token ▸ hr, hresolve⟩
    | @constraint h x _ _ hx hattached => exact (hsourced.params h x hx).constraints sig hattached
  have hrel := Scope.resolve_rel hresolve
  refine ⟨fun b hb => ?_, p, hp, r, hr, hrel⟩
  obtain ⟨a, -, hab⟩ := exists_of_forall₂ (TypeExpr.Rel.atoms r sig hrel).flip hb
  exact hsourced.owns hab

/-- Two types that share a parameter, processed side by side. -/
def sharedInParallel : Setup := { sharedParameter with config := Config.parallel }

/-- The second type, which takes its first steps before the first one, makes the parameter that both
declare. Its base names the first type and both parameters. -/
theorem signatures_closed_sharedInParallel :
    ∃ σ image s sig, sharedInParallel.resolver = Resolver.default ∧
      sharedInParallel.runBy σ = (.ok image, s) ∧ image.Carries (.type ⟨0x02000002⟩) sig ∧
      sig.atoms = [.classType ⟨0⟩, .var ⟨1⟩, .var ⟨0⟩] ∧ (∀ a ∈ sig.atoms, image.Owns a) ∧
      ∃ p ∈ sharedInParallel.types, ∃ r, p.Mentions (.type ⟨0x02000002⟩) r ∧
        r.Rel (image.scope (sharedInParallel.blueprint.topLevel p)).Names sig := by
  let σ : Schedules := { declaring := { turns := [1, 0, 1, 1, 0, 1, 0] }
                         configuring := { turns := [0, 1, 1, 0, 1, 0] } }
  obtain ⟨image, s, hrun⟩ := sharedInParallel.runBy_of_isOk (σ := σ) (by decide +kernel)
  have htypes : (sharedInParallel.runBy σ).1.toOption.map (·.types) = some #[⟨0⟩, ⟨1⟩] := by
    decide +kernel
  have hleaf : ((sharedInParallel.runBy σ).1.toOption.bind (·.store.types.get? ⟨1⟩)).map
      (fun t => (t.token, t.base)) = some (⟨0x02000002⟩,
        some (.inst (Signature.classType ⟨0⟩) [Signature.var ⟨1⟩, Signature.var ⟨0⟩])) := by
    decide +kernel
  rw [hrun] at htypes hleaf
  obtain ⟨t, ht, hbase⟩ := Option.map_eq_some_iff.mp hleaf
  obtain ⟨htoken, hbase⟩ := Prod.mk.inj hbase
  have hmem : (⟨1⟩ : TypeHandle) ∈ image.types := by
    rw [show image.types = _ from Option.some.inj htypes]
    simp
  have hcarried := Image.Carries.ofType hmem ht (.base hbase)
  rw [htoken] at hcarried
  obtain ⟨howned, hplanned⟩ := signatures_closed rfl hrun hcarried
  exact ⟨σ, image, s, _, rfl, hrun, hcarried, rfl, howned, hplanned⟩

end ClrImage
