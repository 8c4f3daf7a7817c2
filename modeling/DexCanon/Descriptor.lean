import DexCanon.Text.Cut

/-!
# Type descriptors

A type is any number of `[` before one primitive letter or before a class: `L`, a name that is not
empty and has no `;`, and `;`. The letter `V` stands for no result at all; it is accepted only where
a caller asks for it, and never behind `[`.

Types carry their own end, so a list of them is written without separators. Positions in a text are
counted in bytes of its UTF-8 form.
-/

set_option autoImplicit false

namespace DexCanon.Descriptor

def primitives : List Char := ['Z', 'B', 'S', 'C', 'I', 'J', 'F', 'D']

/-- Reads the rest of a class type behind its `L`: the name with its `;`, and what follows. -/
def scanClass? (text : List Char) : Option (List Char × List Char) :=
  match Text.cut? [';'] text with
  | some ([], _) | none => none
  | some (name, rest) => some (name ++ [';'], rest)

/-- Reads one type from the front of a text: the type, and what follows it. With `void` the text
may also start with `V`. -/
def scan? (void : Bool) : List Char → Option (List Char × List Char)
  | [] => none
  | c :: rest =>
    if c = '[' then (scan? false rest).map fun parts => (c :: parts.1, parts.2)
    else if c ∈ primitives ∨ (void = true ∧ c = 'V') then some ([c], rest)
    else if c = 'L' then (scanClass? rest).map fun parts => (c :: parts.1, parts.2)
    else none

/-- Accepts a text that is exactly one type. A failure carries the length of the type the text
starts with, or zero if it starts with none. -/
def single (void : Bool) (text : List Char) : Except Nat Unit :=
  match scan? void text with
  | some (_, []) => .ok ()
  | some (type, _) => .error (Text.byteCount type)
  | none => .error 0

theorem scan?_rest_lt {void : Bool} {text type rest : List Char}
    (h : scan? void text = some (type, rest)) : rest.length < text.length := by
  induction text generalizing void type with
  | nil => simp [scan?] at h
  | cons c tail ih =>
    simp only [scan?] at h
    split at h
    · obtain ⟨⟨t, r⟩, hr, he⟩ := Option.map_eq_some_iff.mp h
      simp only [Prod.mk.injEq] at he
      obtain ⟨_, rfl⟩ := he
      have := ih hr
      simp only [List.length_cons]
      omega
    · split at h
      · simp only [Option.some.injEq, Prod.mk.injEq] at h
        obtain ⟨_, rfl⟩ := h
        simp
      · split at h
        · obtain ⟨⟨t, r⟩, hr, he⟩ := Option.map_eq_some_iff.mp h
          simp only [Prod.mk.injEq] at he
          obtain ⟨_, rfl⟩ := he
          unfold scanClass? at hr
          split at hr
          · simp at hr
          · simp at hr
          · next name after _ hcut =>
            simp only [Option.some.injEq, Prod.mk.injEq] at hr
            obtain ⟨_, rfl⟩ := hr
            have := Text.length_of_cut? hcut
            simp only [List.length_cons, List.length_nil] at this ⊢
            omega
        · simp at h

/-- Divides a text into the types it is made of. A failure carries the position where no type
starts. -/
def split (text : List Char) : Except Nat (List (List Char)) :=
  if text = [] then .ok []
  else
    match _ : scan? false text with
    | none => .error 0
    | some (type, rest) =>
      match split rest with
      | .ok types => .ok (type :: types)
      | .error position => .error (Text.byteCount type + position)
termination_by text.length
decreasing_by exact scan?_rest_lt ‹_›

end DexCanon.Descriptor
