import ClrImage.Config
import ClrImage.Failure
import ClrImage.Store

/-!
# Notices

What a build reports on its way, apart from its result.

A notice refers to types by handle, and its text is made when it is shown: the text of a signature
can be far longer than the signature. Types are nested before any notice refers to one, so that
their names are the same by then.

* `Notice`: the notices.
* `Notice.level`, `Notice.text`: severity and text.
* `Notice.log`: the lines of a log.
-/

namespace ClrImage

/-- Something worth telling about a build. -/
inductive Notice
  | building (module : String) (types : Nat) (scope : RegistryScope)
  | declared (types : Nat) (module : String)
  | configuring (types : Nat) (module : String)
  | parameterShared (name : String) (index : UInt32) (declaredBy owner : GenericOwner)
  | parameterRegistered (name : String) (index : UInt32) (owner : GenericOwner)
  | alreadyConfigured (type : TypeHandle)
  | configured (type : TypeHandle) (base : Option Signature) (interfaces generics : Nat)
  | hierarchyConfigured (generics : Nat)
  | populating (types methods : Nat) (module : String)
  | skippingMembers (type : String)
  | skipped (datum : MissingDatum)
  | defaultIgnored (parameter owner method : String)
  | populated (type : TypeHandle) (fields methods properties events : Nat)
  | membersPopulated (methods : Nat)
  /-- A failure, told at the level that the configuration sets. -/
  | failed (level : Level) (failure : Failure)
  | built (module : String) (types methods failures : Nat)
deriving DecidableEq, Repr

namespace Notice

def level : Notice → Level
  | building .. | declared .. | configuring .. | hierarchyConfigured .. | populating ..
  | membersPopulated .. | built .. => .debug
  | parameterRegistered .. | alreadyConfigured .. | configured .. | skippingMembers ..
  | populated .. => .trace
  | parameterShared .. | skipped .. | defaultIgnored .. => .warn
  | failed level _ => level

/-- The text of a notice about objects of a store. -/
def text (s : Store) : Notice → String
  | building module types scope =>
    s!"Building shell of {module} ({types} types, registry scope {scope.name})"
  | declared types module => s!"Declared {types} types in {module}"
  | configuring types module => s!"Configuring hierarchy of {types} types in {module}"
  | parameterShared name index declaredBy owner =>
    s!"Generic parameter {name} (index {index.toNat}) declared by {declaredBy.describe} " ++
      s!"is shared with {owner.describe}"
  | parameterRegistered name index owner =>
    s!"Registered generic parameter {name} (index {index.toNat}) for {owner.describe}"
  | alreadyConfigured type => s!"Hierarchy of {s.typeText type} already configured"
  | configured type base interfaces generics =>
    s!"Configured {s.typeText type}: base {(base.map s.sigText).getD absentText}, " ++
      s!"{interfaces} interfaces, {generics} generic parameters"
  | hierarchyConfigured generics =>
    s!"Hierarchy configured, {generics} generic parameters registered"
  | populating types methods module =>
    s!"Populating members of {types} types ({methods} methods) in {module}"
  | skippingMembers type => s!"Skipping members of {type}"
  | skipped datum => s!"{datum.text}, skipped"
  | defaultIgnored parameter owner method =>
    s!"Ignoring default of parameter {parameter} of {owner}::{method}, not flagged HAS_DEFAULT"
  | populated type fields methods properties events =>
    s!"Populated {s.typeText type}: {fields} fields, {methods} methods, " ++
      s!"{properties} properties, {events} events"
  | membersPopulated methods => s!"Members populated, {methods} methods linked"
  | failed _ failure => s!"{failure.message}: {failure.rootCause.brief}"
  | built module types methods failures =>
    s!"Shell of {module} built: {types} types, {methods} methods, {failures} failures"

/-- A notice behind its severity. -/
def line (s : Store) (n : Notice) : String := n.level.title ++ " " ++ n.text s

/-- The log of some notices: a line for each that is at least as severe as the threshold. -/
def log (s : Store) (threshold : Level) (notices : Array Notice) : Array String :=
  (notices.filter (threshold.admits ·.level)).map (line s)

end Notice

end ClrImage
