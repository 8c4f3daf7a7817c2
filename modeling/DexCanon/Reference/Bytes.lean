import DexCanon.Descriptor
import DexCanon.Reference.ParseError

/-!
# Types in a text of bytes

A text is kept as the bytes of its UTF-8 form. The marks of the grammar are single bytes, so the end
of a type can be found without a look at characters. The type is then cut out of the text. A cut has
to lie within the text, and it cannot go through a character: where it would, the walk over the text
stops there and answers nothing.
-/

set_option autoImplicit false

namespace DexCanon.Reference.Bytes

inductive Halt where
  | refused (cause : ParseError)
  /-- A cut outside the text or through one of its characters. -/
  | badCut
  deriving DecidableEq, Repr

def bytesOf (text : String) : List UInt8 := text.toUTF8.data.toList

/-- The bytes from `start` on. -/
def tail (bytes : List UInt8) (start : Nat) : Except Halt (List UInt8) :=
  if start ≤ bytes.length then .ok (bytes.drop start) else .error .badCut

/-- The part of the text from byte `start` up to byte `stop`. -/
def slice (text : String) (start stop : Nat) : Except Halt String :=
  if h : start ≤ stop ∧ String.Pos.Raw.IsValid text ⟨start⟩ ∧
      String.Pos.Raw.IsValid text ⟨stop⟩ then
    .ok (text.extract (text.pos ⟨start⟩ h.2.1) (text.pos ⟨stop⟩ h.2.2))
  else .error .badCut

def primitives : List UInt8 := Descriptor.primitives.map Char.toUInt8

/-- How many bytes a class takes whose `L` comes first. An end right behind the `L` leaves no
name. -/
def classLength (bytes : List UInt8) : Option Nat :=
  match bytes.findIdx? (· = ';'.toUInt8) with
  | some semicolon => if semicolon > 1 then some (semicolon + 1) else none
  | none => none

/-- How many bytes the type takes that the bytes start with, if they start with one. With `void` a
`V` counts as well, though not behind a bracket. -/
def typeLength (void : Bool) (bytes : List UInt8) : Except Halt (Option Nat) :=
  let brackets := (bytes.takeWhile (· = '['.toUInt8)).length
  match bytes[brackets]? with
  | none => .ok none
  | some b =>
    if b ∈ primitives then .ok (some (brackets + 1))
    else if b = 'V'.toUInt8 ∧ void = true ∧ brackets = 0 then .ok (some 1)
    else if b = 'L'.toUInt8 then
      (tail bytes brackets).map fun front => (classLength front).map (brackets + ·)
    else .ok none

theorem classLength_pos {bytes : List UInt8} {length : Nat} (h : classLength bytes = some length) :
    0 < length := by
  unfold classLength at h
  split at h
  · split at h
    · cases h
      exact Nat.succ_pos _
    · cases h
  · cases h

theorem typeLength_pos {void : Bool} {bytes : List UInt8} {length : Nat}
    (h : typeLength void bytes = .ok (some length)) : 0 < length := by
  unfold typeLength at h
  dsimp only at h
  split at h
  · cases h
  split at h
  · cases h
    exact Nat.succ_pos _
  split at h
  · cases h
    exact Nat.one_pos
  split at h
  · cases htail : tail bytes (bytes.takeWhile (· = '['.toUInt8)).length with
    | error halt => simp [htail, Except.map] at h
    | ok front =>
      simp only [htail, Except.map, Except.ok.injEq] at h
      obtain ⟨classBytes, hclass, rfl⟩ := Option.map_eq_some_iff.mp h
      exact Nat.add_pos_right _ (classLength_pos hclass)
  · cases h

/-- The types that the text is made of from byte `offset` on. Each takes a byte at least, so the
walk comes to an end. -/
def typesFrom (text : String) (offset : Nat) : Except Halt (List String) :=
  if offset < text.utf8ByteSize then
    match tail (bytesOf text) offset with
    | .error halt => .error halt
    | .ok front =>
      match _ : typeLength false front with
      | .error halt => .error halt
      | .ok none => .error (.refused (.malformedType text offset))
      | .ok (some length) =>
        match slice text offset (offset + length) with
        | .error halt => .error halt
        | .ok type => (typesFrom text (offset + length)).map (type :: ·)
  else .ok []
termination_by text.utf8ByteSize - offset
decreasing_by
  have hprogress := typeLength_pos ‹_›
  omega

def types (text : String) : Except Halt (List String) := typesFrom text 0

end DexCanon.Reference.Bytes
