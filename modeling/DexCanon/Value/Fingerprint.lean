import DexCanon.Value.Basic

/-!
# Fingerprints

The fingerprint of an entity is the sequence of tokens from which its hash is made. The parts come
in a fixed order, each sequence of parts after its length; a value starts with its type.
-/

set_option autoImplicit false

namespace DexCanon

inductive Token where
  | type (t : ValueType)
  | number (n : Int)
  | text (s : String)
  | size (n : Nat)
  deriving DecidableEq, Repr

instance : Hashable ValueType := ⟨fun t => hash t.code⟩

deriving instance Hashable for Token

def FieldRef.fingerprint (f : FieldRef) : List Token := [.text f.owner, .text f.name, .text f.type]

def MethodRef.fingerprint (m : MethodRef) : List Token :=
  [.text m.owner, .text m.name, .size m.params.length] ++ m.params.map .text ++ [.text m.result]

def Scalar.fingerprint : Scalar → List Token
  | .string text => [.text text]
  | .type descriptor => [.text descriptor]
  | .null => []
  | .float bits => [.number bits.toNat]
  | .double bits => [.number bits.toNat]
  | s => [.number s.number]

mutual
def Value.fingerprint : Value → List Token
  | .scalar s => .type s.valueType :: s.fingerprint
  | .field f => .type .field :: f.fingerprint
  | .method m => .type .method :: m.fingerprint
  | .enum f => .type .enum :: f.fingerprint
  | .array items => .type .array :: .size items.length :: fingerprintItems items
  | .annot a => .type .annot :: a.fingerprint
def fingerprintItems : List Value → List Token
  | [] => []
  | item :: rest => item.fingerprint ++ fingerprintItems rest
def Annot.fingerprint : Annot → List Token
  | ⟨type, elements⟩ => .text type :: fingerprintElementSet elements
def fingerprintElementSet : ElementSet → List Token
  | ⟨members⟩ => .size members.length :: fingerprintElements members
def fingerprintElements : List Element → List Token
  | [] => []
  | element :: rest => element.fingerprint ++ fingerprintElements rest
def Element.fingerprint : Element → List Token
  | ⟨name, value⟩ => .text name :: value.fingerprint
end

instance : Hashable FieldRef := ⟨fun f => hash f.fingerprint⟩
instance : Hashable MethodRef := ⟨fun m => hash m.fingerprint⟩
instance : Hashable Value := ⟨fun v => hash v.fingerprint⟩
instance : Hashable Element := ⟨fun e => hash e.fingerprint⟩
instance : Hashable Annot := ⟨fun a => hash a.fingerprint⟩
instance : Hashable ElementSet := ⟨fun s => hash (fingerprintElementSet s)⟩

end DexCanon
