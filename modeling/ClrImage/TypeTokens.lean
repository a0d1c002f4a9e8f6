import ClrImage.Store

/-!
# Tokens for the types of a body

Without a module to look tokens up in, every type operand still gets one: primitive and declared
types have a token, and all other types get fresh rows of the table of type specifications.

* `TypeTokens`: how many tokens have been given.
* `TypeTokens.source`: the source of tokens.
-/

namespace ClrImage

/-- How many tokens were asked for, and how many type specifications were made. -/
structure TypeTokens where
  asked : Nat := 0
  specs : UInt32 := 0

namespace TypeTokens

/-- The token of a type. Each type that is neither primitive nor declared gets a row of its own,
even if an equal type has one; a released type has the null token. The request that comes after
`limit` others is refused. -/
def source (store : Store) (limit : Option Nat) : Body.TokenSource TypeTokens := fun sig => do
  let given ← get
  set { given with asked := given.asked + 1 }
  if limit = some given.asked then
    throw (.unresolved (store.sigText sig) .noToken)
  match sig with
  | .atom (.primitive p) => pure p.token
  | .atom (.classType h) | .atom (.valueType h) =>
    pure (((store.types.get? h).map (·.token)).getD ⟨0⟩)
  | _ =>
    modify fun given => { given with specs := given.specs + 1 }
    pure (Token.ofParts Table.typeSpec (given.specs + 1))

/-- The bytes of a body with tokens from a fresh source. -/
def encode (store : Store) (body : Body) (localSig : Token) (limit : Option Nat) :
    Except Failure (List UInt8) :=
  ((body.encode localSig (source store limit)).run {}).1

end TypeTokens

end ClrImage
