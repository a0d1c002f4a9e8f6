import ClrImage.Build.Staging

/-!
# Publication

The third pass gives every type its fields, methods, properties and events. The members of a type
are staged first and published together.

* `Build.publish`: links and lists staged members.
* `Setup.populateType`: gives one type its members.
* `Setup.populateMembers`: the pass over one type after the other.
-/

namespace ClrImage

/-! ## Taken tokens -/

namespace LinkTable

/-- The first token of staged objects that is linked already. -/
def taken? {k : ObjectKind} (m : WriteOnce Token (Handle k)) (staged : Array (Token × Handle k)) :
    Option Token :=
  (staged.find? fun entry => (m.get? entry.1).isSome).map (·.1)

/-- The first token of staged members that is linked already: of fields, then of methods, properties
and events. -/
def firstTaken? (t : LinkTable) (staged : Staged) : Option Token :=
  taken? t.fields staged.fields <|> taken? t.methods staged.methods <|>
    taken? t.properties staged.properties <|> taken? t.events staged.events

end LinkTable

/-! ## Publishing members -/

namespace Build

/-- Links a member and lists it in its type. -/
def publishMember {k : ObjectKind} (type : TypeHandle)
    (link : LinkTable → Token → Handle k → Except Failure LinkTable)
    (list : TypeDef → Handle k → TypeDef) (member : Token × Handle k) : Build Unit := do
  let links ← liftExcept (link (← get).links member.1 member.2)
  modify fun s => { s with links }
  modifyType type fun t => list t member.2

/-- Links and lists all staged members of a type, unless one of their tokens is taken. -/
def publish (type : TypeHandle) (staged : Staged) : Build Unit := do
  match (← get).links.firstTaken? staged with
  | some token => throw (.duplicateLink token)
  | none =>
    staged.fields.toList.forM <| publishMember type LinkTable.linkField fun t h =>
      { t with fields := t.fields.push h }
    staged.methods.toList.forM <| publishMember type LinkTable.linkMethod fun t h =>
      { t with methods := t.methods.push h }
    staged.properties.toList.forM <| publishMember type LinkTable.linkProperty fun t h =>
      { t with properties := t.properties.push h }
    staged.events.toList.forM <| publishMember type LinkTable.linkEvent fun t h =>
      { t with events := t.events.push h }

/-- Tells how many members a type has. -/
def noticePopulated (h : TypeHandle) : Build Unit := do
  match (← get).store.types.get? h with
  | none => pure ()
  | some t =>
    notice (.populated h t.fields.size t.methods.size t.properties.size t.events.size)

end Build

/-! ## The pass -/

namespace Setup

/-- Makes and publishes the members of a type. -/
def populate (setup : Setup) (p : TypePlan) : Build Unit := do
  let (h, t) ← Build.managedType p
  let site : MemberSite := ⟨(← get).store.fullName t, setup.blueprint.topLevel p⟩
  let staged ← setup.stage site p
  Build.publish h staged
  Build.noticePopulated h

/-- Gives one type its members. The pseudo type of the module is left out if the configuration says
so. -/
def populateType (setup : Setup) (p : TypePlan) : Build Unit :=
  if p.isModuleType && setup.config.skipModuleType then Build.notice (.skippingMembers p.name)
  else setup.inContext .members p (setup.populate p)

/-- Gives one type its members; if the configuration says so, a failure is only recorded. -/
def populateOrRecord (setup : Setup) (p : TypePlan) : Build Unit :=
  if setup.config.continueOnTypeError then
    tryCatch (setup.populateType p) fun failure =>
      modify fun s => { s with failures := s.failures.push failure }
  else
    setup.populateType p

/-- Gives every type its members, one after the other up to the first failure. The pass of a
configuration that may process types side by side is `Setup.populateMembersBy`. -/
def populateMembers (setup : Setup) : Build Unit := do
  Build.notice
    (.populating setup.types.length setup.blueprint.methodCount setup.blueprint.module)
  setup.types.forM setup.populateOrRecord
  Build.notice (.membersPopulated (← get).links.methodCount)

end Setup

end ClrImage
