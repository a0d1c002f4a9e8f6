import ClrImage.TypeDef

/-!
# The object store

All objects of an image, each kind in its own arena.

* `Store`: the arenas.
* `Store.fullName`: the name of a type behind those of the types around it.
* `Store.sigText`, `Store.isValueType`: what a signature reads and means with the objects it names.
* `Store.setBase`, `Store.setDeclaring`: the parts of a type that are set once.
-/

namespace ClrImage

/-- The objects that handles name. -/
structure Store where
  types : Arena .type TypeDef := {}
  generics : Arena .generic GenericParam := {}
  fields : Arena .field FieldDef := {}
  params : Arena .param ParamDef := {}
  methods : Arena .method MethodDef := {}
  properties : Arena .property PropertyDef := {}
  events : Arena .event EventDef := {}
deriving Inhabited

namespace Store

/-! ## Names -/

/-- The declaring type of a type, if it is still there. -/
def outer? (s : Store) (t : TypeDef) : Option TypeDef := t.declaring.bind s.types.get?

/-- The full name of a type, through at most `fuel` declaring types. -/
def fullNameWithin (s : Store) : (fuel : Nat) → TypeDef → String
  | 0, t => t.ownName
  | fuel + 1, t =>
    match s.outer? t with
    | some outer => s!"{s.fullNameWithin fuel outer}/{t.name}"
    | none => t.ownName

/-- The names of the types around a type and its own, outermost first; only the outermost has a
namespace. A chain of declaring types has no more members than there are types. -/
def fullName (s : Store) (t : TypeDef) : String := s.fullNameWithin s.types.size t

/-- What stands for an object that has been released. -/
def droppedText : String := "<dropped>"

/-- The full name of a type that may have been released. -/
def typeText (s : Store) (h : TypeHandle) : String :=
  ((s.types.get? h).map s.fullName).getD droppedText

/-- Declared types are written by full name, generic parameters by name. -/
def atomText (s : Store) : SigAtom → String
  | .primitive p => p.fullName
  | .classType h | .valueType h => s.typeText h
  | .var h | .mvar h => ((s.generics.get? h).map (·.name)).getD droppedText

/-- The rank of an array shows in the number of commas. -/
def rankText (rank : UInt32) : String :=
  "[".pushn ',' (rank.toNat - 1) ++ "]"

/-- The written form of a signature. -/
def sigText (s : Store) (sig : Signature) : String := sig.text s.atomText rankText

def operandText (s : Store) : Operand → String
  | .none => ""
  | .slot index => s!" {index.toNat}"
  | .type sig => s!" {s.sigText sig}"

def instructionText (s : Store) (i : Instruction) : String :=
  i.opcode.name ++ s.operandText i.operand

def bodyText (s : Store) (b : Body) : String :=
  "; ".intercalate (b.code.map s.instructionText)

/-! ## Meaning of signatures -/

/-- The generic parameter that a signature stands for, if it is still there. -/
def paramOf? (s : Store) (sig : Signature) : Option GenericParam := sig.param?.bind s.generics.get?

/-- The declared type of a signature, if it is still there. -/
def typeOf? (s : Store) (sig : Signature) : Option TypeDef := sig.declared?.bind s.types.get?

/-- Whether values of the type are stored in place. A generic parameter counts only if it is
constrained to value types. -/
def isValueType (s : Store) : Signature → Bool
  | .atom (.primitive p) => p.isValueType
  | .atom (.valueType _) => true
  | .atom (.var h) | .atom (.mvar h) =>
    ((s.generics.get? h).map (·.flags.contains GenericFlags.valueType)).getD false
  | .inst definition _ => s.isValueType definition
  | _ => false

/-! ## Parts -/

/-- The first of some objects that has a name. -/
def firstNamed? {k : ObjectKind} {α : Type} (a : Arena k α) (nameOf : α → String)
    (handles : Array (Handle k)) (name : String) : Option (Handle k) :=
  handles.find? fun h => (a.get? h).any (nameOf · == name)

def fieldNamed? (s : Store) (t : TypeDef) (name : String) : Option FieldHandle :=
  firstNamed? s.fields (·.name) t.fields name

def methodNamed? (s : Store) (t : TypeDef) (name : String) : Option MethodHandle :=
  firstNamed? s.methods (·.name) t.methods name

def propertyNamed? (s : Store) (t : TypeDef) (name : String) : Option PropertyHandle :=
  firstNamed? s.properties (·.name) t.properties name

def eventNamed? (s : Store) (t : TypeDef) (name : String) : Option EventHandle :=
  firstNamed? s.events (·.name) t.events name

/-- The first parameter of a method that has a sequence number. -/
def findParam? (s : Store) (m : MethodDef) (sequence : UInt16) : Option ParamHandle :=
  m.params.find? fun h => (s.params.get? h).any (·.sequence == sequence)

/-! ## Parts that are set once -/

/-- Sets the base of a type. -/
def setBase (s : Store) (h : TypeHandle) (base : Signature) : Except Failure Store :=
  match s.types.get? h with
  | none => .ok s
  | some t =>
    if t.base.isSome then .error (.flawed (.baseAlreadySet (s.fullName t)))
    else .ok { s with types := s.types.modify h fun t => { t with base := some base } }

/-- Sets the declaring type of a type. -/
def setDeclaring (s : Store) (h outer : TypeHandle) : Except Failure Store :=
  match s.types.get? h with
  | none => .ok s
  | some t =>
    if t.declaring.isSome then .error (.flawed (.declaringAlreadySet t.name))
    else .ok { s with types := s.types.modify h fun t => { t with declaring := some outer } }

end Store

end ClrImage
