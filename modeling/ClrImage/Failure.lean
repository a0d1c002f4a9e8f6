import ClrImage.Token

/-!
# Failures

The causes for which an operation is refused, and their texts.

* `Unresolved`: why a type reference has no signature.
* `MissingDatum`, `Flaw`: what is wrong with a descriptor.
* `Failure`: every cause, also within the context of the type that was processed.
* `Failure.message`, `Failure.brief`, `Failure.rootCause`: the texts of a failure, and its innermost
  cause.
-/

namespace ClrImage

/-! ## References -/

/-- Why a reference is not resolved. -/
inductive Unresolved
  /-- The token is in another table. -/
  | notTypeDef
  /-- No type is linked under the token. -/
  | notLinked
  /-- The type is being processed before its declaration. -/
  | notDeclared
  | undeclaredParameter (index : UInt32)
  | zeroRank
  | noArguments
  /-- What is instantiated is not a declared type; `definition` is its text. -/
  | notGeneric (definition : String)
  | noToken
  | other (text : String)
deriving DecidableEq, Repr, Inhabited

def Unresolved.text : Unresolved → String
  | notTypeDef => "not a TypeDef token"
  | notLinked => "no type declared for token"
  | notDeclared => "type has not been declared"
  | undeclaredParameter index => s!"generic parameter {index.toNat} has not been declared"
  | zeroRank => "array rank must be at least 1"
  | noArguments => "generic instantiation without arguments"
  | notGeneric definition => s!"{definition} is not a generic type definition"
  | noToken => "no token"
  | other text => text

/-! ## Descriptors -/

/-- Data that a flag announces and the descriptor lacks. -/
inductive MissingDatum
  | fieldDefault (owner field : String)
  | fieldData (owner field : String)
  | parameterDefault (parameter owner method : String)
deriving DecidableEq, Repr

def MissingDatum.text : MissingDatum → String
  | fieldDefault owner field =>
    s!"Field {owner}::{field} is flagged HAS_DEFAULT but carries no value"
  | fieldData owner field =>
    s!"Field {owner}::{field} is flagged HAS_FIELD_RVA but carries no initial data"
  | parameterDefault parameter owner method =>
    s!"Parameter {parameter} of {owner}::{method} is flagged HAS_DEFAULT but carries no value"

/-- What is wrong with a descriptor or with a request about one. -/
inductive Flaw
  | baseAlreadySet (type : String)
  | declaringAlreadySet (type : String)
  | fieldHasConstant (field : String)
  | fieldHasData (field : String)
  | parameterHasDefault (parameter : String)
  | localsNeedSignature (count : Nat)
  | codeTooLarge (size : Nat)
  | unknownType (token : Token)
  | unknownMethod (token : Token)
  | unknownField (token : Token)
  | cannotOwnGenerics (token : Token)
  | undeclaredGeneric (owner : Token) (index : UInt32)
  | cyclicNesting (type : String)
  | unknownDeclaring (token : Token) (type : String)
  | tooManyParameters (method : String)
  | tooManyGenerics (method : String)
  | missing (datum : MissingDatum)
  | other (text : String)
deriving DecidableEq, Repr

def Flaw.text : Flaw → String
  | baseAlreadySet type => s!"Base type of {type} already set"
  | declaringAlreadySet type => s!"Declaring type of {type} already set"
  | fieldHasConstant field => s!"Field {field} already has a constant"
  | fieldHasData field => s!"Field {field} already has initial data"
  | parameterHasDefault parameter => s!"Parameter {parameter} already has a default"
  | localsNeedSignature count => s!"Body with {count} locals requires a local signature token"
  | codeTooLarge size => s!"Code size {size} exceeds u32"
  | unknownType token => s!"Unknown type {token.text}"
  | unknownMethod token => s!"Unknown method {token.text}"
  | unknownField token => s!"Unknown field {token.text}"
  | cannotOwnGenerics token => s!"{token.text} cannot own generic parameters"
  | undeclaredGeneric owner index =>
    s!"{owner.text} does not declare generic parameter {index.toNat}"
  | cyclicNesting type => s!"Nesting of {type} is cyclic"
  | unknownDeclaring token type => s!"Declaring type {token.text} of {type} is unknown"
  | tooManyParameters method => s!"Method {method} has too many parameters"
  | tooManyGenerics method => s!"Method {method} has too many generic parameters"
  | missing datum => datum.text
  | other text => text

/-! ## Failures -/

/-- What stands for the name of a type that there is not. -/
def absentText : String := "<none>"

/-- The pass of a build in which a type was processed. -/
inductive Phase
  | declare | hierarchy | members
deriving DecidableEq, Repr

def Phase.name : Phase → String
  | declare => "declare"
  | hierarchy => "hierarchy"
  | members => "members"

/-- The pass with a name. -/
def Phase.ofName? (name : String) : Option Phase :=
  [declare, hierarchy, members].find? (·.name == name)

/-- Where a descriptor was found to be malformed. -/
structure Site where
  file : String
  line : Nat
deriving DecidableEq, Repr

/-- Why an operation was refused. -/
inductive Failure
  | unresolved (reference : String) (reason : Unresolved)
  /-- An accessor of `owner` names a method that has not been converted. -/
  | missingLink (owner accessor : String) (method : Token)
  | malformed (flaw : Flaw) (site : Option Site)
  | duplicateLink (token : Token)
  | tooDeep (limit : Nat)
  | lockLost
  /-- The failure `source` arose while a type was processed. -/
  | inType (phase : Phase) (typeName declaringType module : String) (source : Failure)
deriving DecidableEq, Repr, Inhabited

namespace Failure

/-- A malformed descriptor, without a site. -/
abbrev flawed (flaw : Flaw) : Failure := malformed flaw none

/-- The text of a failure; that of its source is not part of it. -/
def message : Failure → String
  | unresolved reference reason => s!"Unresolved type reference {reference}: {reason.text}"
  | missingLink owner accessor method =>
    s!"Accessor {accessor} of {owner} references method {method.text}, " ++
      "which has no managed counterpart"
  | malformed flaw none => s!"Malformed descriptor - {flaw.text}"
  | malformed flaw (some site) =>
    s!"Malformed descriptor - {site.file}:{site.line}: {flaw.text}"
  | duplicateLink token => s!"Entity {token.text} is already linked to a managed object"
  | tooDeep limit => s!"Reach the maximum recursion level allowed - {limit}"
  | lockLost => "Failed to lock target"
  | inType phase typeName declaringType module _ =>
    s!"Failed to process type {typeName} (module {module}, declaring type {declaringType}) " ++
      s!"during {phase.name}"

/-- The text of a failure without the place where a descriptor was found to be malformed. -/
def brief : Failure → String
  | malformed flaw _ => (flawed flaw).message
  | failure => failure.message

/-- What is left when the context of types is taken away. -/
def rootCause : Failure → Failure
  | inType _ _ _ _ source => source.rootCause
  | failure => failure

/-- Whether the root cause is a reference without a signature. -/
def isUnresolved (failure : Failure) : Bool :=
  match failure.rootCause with
  | unresolved .. => true
  | _ => false

end Failure

end ClrImage
