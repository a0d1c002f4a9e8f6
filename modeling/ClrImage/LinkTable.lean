import ClrImage.Arena
import ClrImage.Failure
import ClrImage.WriteOnce

/-!
# The link table

The objects under their tokens. Each token names at most one object of each kind, and names it for
good.

* `LinkTable`: one write-once map per kind of object.
* `LinkTable.link`: the rule by which a token is linked.
-/

namespace ClrImage

/-- The objects of an image by token. -/
structure LinkTable where
  types : WriteOnce Token TypeHandle := {}
  fields : WriteOnce Token FieldHandle := {}
  methods : WriteOnce Token MethodHandle := {}
  properties : WriteOnce Token PropertyHandle := {}
  events : WriteOnce Token EventHandle := {}
deriving Inhabited

namespace LinkTable

/-- Links a token to an object. Linking it to the same object again changes nothing; linking it to
another one is refused. -/
def link {k : ObjectKind} (m : WriteOnce Token (Handle k)) (token : Token) (h : Handle k) :
    Except Failure (WriteOnce Token (Handle k)) :=
  match m.get? token with
  | none => .ok (m.offer token h)
  | some held => if held = h then .ok m else .error (.duplicateLink token)

def linkType (t : LinkTable) (token : Token) (h : TypeHandle) : Except Failure LinkTable :=
  (link t.types token h).map fun types => { t with types }

def linkField (t : LinkTable) (token : Token) (h : FieldHandle) : Except Failure LinkTable :=
  (link t.fields token h).map fun fields => { t with fields }

def linkMethod (t : LinkTable) (token : Token) (h : MethodHandle) : Except Failure LinkTable :=
  (link t.methods token h).map fun methods => { t with methods }

def linkProperty (t : LinkTable) (token : Token) (h : PropertyHandle) : Except Failure LinkTable :=
  (link t.properties token h).map fun properties => { t with properties }

def linkEvent (t : LinkTable) (token : Token) (h : EventHandle) : Except Failure LinkTable :=
  (link t.events token h).map fun events => { t with events }

/-- The number of linked types. -/
def typeCount (t : LinkTable) : Nat := t.types.size

/-- The number of linked methods. -/
def methodCount (t : LinkTable) : Nat := t.methods.size

end LinkTable

end ClrImage
