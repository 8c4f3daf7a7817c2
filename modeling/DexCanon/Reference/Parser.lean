import DexCanon.Descriptor
import DexCanon.Reference.Basic
import DexCanon.Reference.ParseError

/-!
# Reading references

A reference is read from left to right. The class ends at the first arrow, the name at the first
mark behind it (`(` for a method, `:` for a field) and the parameters at the first `)` behind
that, so later marks belong to the part in which they stand. The first part that is missing or
malformed decides which failure is reported; the class is checked before the member is looked at.
-/

set_option autoImplicit false

namespace DexCanon

namespace Reference

def oneType (void : Bool) (text : List Char) : Except ParseError String :=
  match Descriptor.single void text with
  | .ok () => .ok (String.ofList text)
  | .error position => .error (.malformedType (String.ofList text) position)

def typeList (text : List Char) : Except ParseError (List String) :=
  match Descriptor.split text with
  | .ok types => .ok (types.map String.ofList)
  | .error position => .error (.malformedType (String.ofList text) position)

/-- Reads the class in front of the arrow. What follows the arrow is left as it is. -/
def owner (text : String) : Except ParseError (String × List Char) :=
  match Text.cut? ['-', '>'] text.toList with
  | none => .error (.missingArrow text)
  | some (front, member) => (oneType false front).map fun type => (type, member)

end Reference

def MethodRef.parse (text : String) : Except ParseError MethodRef := do
  let (owner, member) ← Reference.owner text
  match Text.cut? ['('] member with
  | none => throw (.missingParameters text)
  | some ([], _) => throw (.emptyName text)
  | some (name, signature) =>
    match Text.cut? [')'] signature with
    | none => throw (.missingParameters text)
    | some (front, back) =>
      let params ← Reference.typeList front
      let result ← Reference.oneType true back
      return ⟨owner, String.ofList name, params, result⟩

def FieldRef.parse (text : String) : Except ParseError FieldRef := do
  let (owner, member) ← Reference.owner text
  match Text.cut? [':'] member with
  | none => throw (.missingFieldType text)
  | some ([], _) => throw (.emptyName text)
  | some (name, back) =>
    let type ← Reference.oneType false back
    return ⟨owner, String.ofList name, type⟩

end DexCanon
