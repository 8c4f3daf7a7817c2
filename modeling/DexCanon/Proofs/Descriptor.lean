import DexCanon.Descriptor
import DexCanon.Proofs.Text.Cut

/-!
# The grammar of descriptors

What a type is, said without the scanner, and that the scanner reads exactly that: a text starts
with at most one type, and it is made of types in at most one way.
-/

set_option autoImplicit false

namespace DexCanon.Descriptor

/-- Brackets before a primitive letter or before a class with a name. -/
inductive IsType : List Char → Prop
  | primitive {c : Char} (h : c ∈ primitives) : IsType [c]
  | ofClass {name : List Char} (hne : name ≠ []) (hend : ';' ∉ name) :
      IsType ('L' :: name ++ [';'])
  | array {type : List Char} (h : IsType type) : IsType ('[' :: type)

/-- A type, or the letter for no result where it is accepted. -/
def IsResult (void : Bool) (text : List Char) : Prop := IsType text ∨ void = true ∧ text = ['V']

variable {void : Bool} {text type rest : List Char}

@[simp] theorem isResult_false : IsResult false text ↔ IsType text := by simp [IsResult]

@[simp] theorem isResult_true : IsResult true text ↔ IsType text ∨ text = ['V'] := by
  simp [IsResult]

theorem IsType.ne_nil (h : IsType text) : text ≠ [] := by
  cases h <;> simp

theorem scanClass?_eq_some_iff : scanClass? text = some (type, rest) ↔
    text = type ++ rest ∧ ∃ name, name ≠ [] ∧ ';' ∉ name ∧ type = name ++ [';'] := by
  unfold scanClass?
  constructor
  · intro h
    split at h
    · cases h
    · cases h
    · next name after hne hcut =>
      obtain ⟨rfl, hend⟩ := Text.cut?_mark_eq_some_iff.mp hcut
      obtain ⟨rfl, rfl⟩ := Prod.mk.inj (Option.some.inj h)
      exact ⟨by simp, name, hne, hend, rfl⟩
  · rintro ⟨rfl, name, hne, hend, rfl⟩
    have hcut : Text.cut? [';'] (name ++ [';'] ++ rest) = some (name, rest) :=
      Text.cut?_mark_eq_some_iff.mpr ⟨by simp, hend⟩
    rw [hcut]
    cases name with
    | nil => exact absurd rfl hne
    | cons c name => rfl

theorem isType_of_scan? (h : scan? void text = some (type, rest)) :
    text = type ++ rest ∧ IsResult void type := by
  induction text generalizing void type with
  | nil => cases h
  | cons c tail ih =>
    rw [scan?] at h
    split at h
    · next hc =>
      obtain ⟨⟨inner, after⟩, hscan, heq⟩ := Option.map_eq_some_iff.mp h
      obtain ⟨rfl, rfl⟩ := Prod.mk.inj heq
      obtain ⟨rfl, htype | ⟨hvoid, -⟩⟩ := ih hscan
      · subst hc
        exact ⟨rfl, .inl (.array htype)⟩
      · cases hvoid
    · split at h
      · next hc =>
        obtain ⟨rfl, rfl⟩ := Prod.mk.inj (Option.some.inj h)
        refine ⟨rfl, ?_⟩
        rcases hc with hc | ⟨hvoid, rfl⟩
        · exact .inl (.primitive hc)
        · exact .inr ⟨hvoid, rfl⟩
      · split at h
        · next hc =>
          obtain ⟨⟨name, after⟩, hscan, heq⟩ := Option.map_eq_some_iff.mp h
          obtain ⟨rfl, rfl⟩ := Prod.mk.inj heq
          obtain ⟨rfl, name, hne, hend, rfl⟩ := scanClass?_eq_some_iff.mp hscan
          subst hc
          exact ⟨rfl, .inl (.ofClass hne hend)⟩
        · cases h

theorem IsType.scan?_append (h : IsType type) (void : Bool) (rest : List Char) :
    scan? void (type ++ rest) = some (type, rest) := by
  induction h generalizing void with
  | @primitive c hc =>
    have hbracket : c ≠ '[' := by
      rintro rfl
      revert hc
      decide
    rw [List.cons_append, scan?, if_neg hbracket, if_pos (.inl hc)]
    rfl
  | @ofClass name hne hend =>
    have hscan : scanClass? (name ++ [';'] ++ rest) = some (name ++ [';'], rest) :=
      scanClass?_eq_some_iff.mpr ⟨rfl, name, hne, hend, rfl⟩
    rw [List.cons_append, List.cons_append, scan?, if_neg (by decide),
      if_neg (by simp [primitives]), if_pos rfl, hscan]
    rfl
  | array _ ih =>
    rw [List.cons_append, scan?, if_pos rfl, ih]
    rfl

theorem scan?_eq_some_iff : scan? void text = some (type, rest) ↔
    text = type ++ rest ∧ IsResult void type := by
  constructor
  · exact isType_of_scan?
  · rintro ⟨rfl, htype | ⟨rfl, rfl⟩⟩
    · exact htype.scan?_append void rest
    · rfl

theorem single_eq_ok_iff : single void text = .ok () ↔ IsResult void text := by
  unfold single
  constructor
  · intro h
    split at h
    · next type hscan =>
      obtain ⟨rfl, hresult⟩ := scan?_eq_some_iff.mp hscan
      rwa [List.append_nil]
    · cases h
    · cases h
  · intro h
    have hscan : scan? void text = some (text, []) :=
      scan?_eq_some_iff.mpr ⟨(List.append_nil text).symm, h⟩
    rw [hscan]

instance : Decidable (IsType text) :=
  decidable_of_iff (scan? false text = some (text, [])) (by simp [scan?_eq_some_iff, IsResult])

-- ---------------------------------------------------------------------------
-- Lists of types
-- ---------------------------------------------------------------------------

@[simp] theorem split_nil : split [] = .ok [] := by
  rw [split, if_pos rfl]

theorem split_append (h : IsType type) (rest : List Char) :
    split (type ++ rest) = match split rest with
      | .ok types => .ok (type :: types)
      | .error position => .error (Text.byteCount type + position) := by
  have hscan := h.scan?_append false rest
  have hne : type ++ rest ≠ [] := List.append_ne_nil_of_left_ne_nil h.ne_nil rest
  rw [split, if_neg hne]
  split
  · next hnone =>
    rw [hscan] at hnone
    cases hnone
  · next type' rest' hsome =>
    rw [hscan] at hsome
    obtain ⟨rfl, rfl⟩ := Prod.mk.inj (Option.some.inj hsome)
    rfl

theorem split_flatten {types : List (List Char)} (h : ∀ type ∈ types, IsType type) :
    split types.flatten = .ok types := by
  induction types with
  | nil => exact split_nil
  | cons type types ih =>
    obtain ⟨htype, hrest⟩ := List.forall_mem_cons.mp h
    rw [List.flatten_cons, split_append htype, ih hrest]

theorem isType_of_split {types : List (List Char)} (h : split text = .ok types) :
    text = types.flatten ∧ ∀ type ∈ types, IsType type := by
  fun_induction split text generalizing types with
  | case1 =>
    cases h
    exact ⟨rfl, by simp⟩
  | case2 => cases h
  | case3 text hne type rest hscan rest' hrest ih =>
    obtain rfl := Except.ok.inj h
    obtain ⟨rfl, htype | ⟨hvoid, -⟩⟩ := scan?_eq_some_iff.mp hscan
    · obtain ⟨rfl, hall⟩ := ih hrest
      exact ⟨rfl, List.forall_mem_cons.mpr ⟨htype, hall⟩⟩
    · cases hvoid
  | case4 => cases h

theorem split_eq_ok_iff {types : List (List Char)} : split text = .ok types ↔
    text = types.flatten ∧ ∀ type ∈ types, IsType type := by
  constructor
  · exact isType_of_split
  · rintro ⟨rfl, h⟩
    exact split_flatten h

-- ---------------------------------------------------------------------------
-- Failures
-- ---------------------------------------------------------------------------

def IsTypeList (text : List Char) : Prop :=
  ∃ types, text = List.flatten types ∧ ∀ type ∈ types, IsType type

/-- How many bytes the type takes that a text starts with; none if it starts with no type. -/
inductive TypeBytes (void : Bool) : List Char → Nat → Prop
  | front {type : List Char} (h : IsResult void type) (rest : List Char) :
      TypeBytes void (type ++ rest) (String.ofList type).utf8ByteSize
  | none {text : List Char} (h : ∀ type, type <+: text → ¬ IsResult void type) :
      TypeBytes void text 0

/-- How many bytes the types take that a text starts with, up to where no further type starts. -/
inductive TypesBytes : List Char → Nat → Prop
  | front {types : List (List Char)} (h : ∀ type ∈ types, IsType type) {rest : List Char}
      (hrest : ∀ type, type <+: rest → ¬ IsType type) :
      TypesBytes (types.flatten ++ rest) (String.ofList types.flatten).utf8ByteSize

theorem scan?_eq_none_iff :
    scan? void text = none ↔ ∀ type, type <+: text → ¬ IsResult void type := by
  constructor
  · rintro h type ⟨rest, rfl⟩ htype
    rw [scan?_eq_some_iff.mpr ⟨rfl, htype⟩] at h
    cases h
  · intro h
    cases hscan : scan? void text with
    | none => rfl
    | some parts =>
      obtain ⟨htext, htype⟩ := scan?_eq_some_iff.mp hscan
      exact absurd htype (h parts.1 (htext ▸ List.prefix_append parts.1 parts.2))

theorem single_eq_error_iff {position : Nat} : single void text = .error position ↔
    ¬ IsResult void text ∧ TypeBytes void text position := by
  constructor
  · intro h
    refine ⟨?_, ?_⟩
    · rw [← single_eq_ok_iff, h]
      exact fun hok => by cases hok
    · unfold single at h
      split at h
      · cases h
      · next type rest _ hscan =>
        obtain ⟨rfl, htype⟩ := scan?_eq_some_iff.mp hscan
        obtain rfl := Except.error.inj h
        rw [Text.byteCount_eq]
        exact .front htype rest
      · next hscan =>
        obtain rfl := Except.error.inj h
        exact .none (scan?_eq_none_iff.mp hscan)
  · rintro ⟨hnot, hbytes⟩
    unfold single
    cases hbytes with
    | @front type htype rest =>
      rw [scan?_eq_some_iff.mpr ⟨rfl, htype⟩, ← Text.byteCount_eq]
      cases rest with
      | nil => exact absurd ((List.append_nil type).symm ▸ htype) hnot
      | cons c rest => rfl
    | none h => rw [scan?_eq_none_iff.mpr h]

theorem not_isTypeList_of_split {position : Nat} (h : split text = .error position) :
    ¬ IsTypeList text := by
  rintro ⟨types, htypes⟩
  rw [split_eq_ok_iff.mpr htypes] at h
  cases h

theorem typesBytes_of_split {position : Nat} (h : split text = .error position) :
    TypesBytes text position := by
  fun_induction split text generalizing position with
  | case1 => cases h
  | case2 text hne hscan =>
    obtain rfl := Except.error.inj h
    have hnone := scan?_eq_none_iff.mp hscan
    have hnil : ∀ type ∈ ([] : List (List Char)), IsType type := by simp
    exact .front hnil fun type hprefix htype => hnone type hprefix (.inl htype)
  | case3 => cases h
  | case4 text hne type rest hscan position' hrest ih =>
    obtain rfl := Except.error.inj h
    obtain ⟨rfl, htype | ⟨hvoid, -⟩⟩ := scan?_eq_some_iff.mp hscan
    · cases ih hrest with
      | @front types htypes rest hnone =>
        rw [← Text.byteCount_eq, ← Text.byteCount_append, ← List.append_assoc, Text.byteCount_eq]
        have hall : ∀ each ∈ type :: types, IsType each := List.forall_mem_cons.mpr ⟨htype, htypes⟩
        exact .front hall hnone
    · cases hvoid

theorem split_flatten_append {types : List (List Char)} (h : ∀ type ∈ types, IsType type)
    {rest : List Char} (hne : rest ≠ []) (hnone : ∀ type, type <+: rest → ¬ IsType type) :
    split (types.flatten ++ rest) = .error (Text.byteCount types.flatten) := by
  induction types with
  | nil =>
    have hscan : scan? false rest = none := scan?_eq_none_iff.mpr (by simpa using hnone)
    rw [List.flatten_nil, List.nil_append, split, if_neg hne]
    split
    · rfl
    · next hsome =>
      rw [hscan] at hsome
      cases hsome
  | cons type types ih =>
    obtain ⟨htype, htypes⟩ := List.forall_mem_cons.mp h
    rw [List.flatten_cons, List.append_assoc, split_append htype, ih htypes, Text.byteCount_append]

theorem split_of_typesBytes {position : Nat} (hnot : ¬ IsTypeList text)
    (h : TypesBytes text position) : split text = .error position := by
  cases h with
  | @front types htypes rest hnone =>
    have hne : rest ≠ [] := by
      rintro rfl
      exact hnot ⟨types, List.append_nil _, htypes⟩
    rw [split_flatten_append htypes hne hnone, Text.byteCount_eq]

theorem split_eq_error_iff {position : Nat} : split text = .error position ↔
    ¬ IsTypeList text ∧ TypesBytes text position := by
  constructor
  · exact fun h => ⟨not_isTypeList_of_split h, typesBytes_of_split h⟩
  · rintro ⟨hnot, h⟩
    exact split_of_typesBytes hnot h

end DexCanon.Descriptor
