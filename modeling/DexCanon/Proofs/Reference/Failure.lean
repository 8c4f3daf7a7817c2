import DexCanon.Proofs.Reference.RoundTrip

/-!
# What is wrong with a text that is no reference

A text may have several defects at once. The one that is reported is the first from left to right,
as far as the marks that end the parts can be found: no arrow, a class that is no type, no mark
behind the name, no name, and then the types behind it. Here the defects are said in terms of the
text alone, with the length in bytes of the part of a malformed type that could still be read.
-/

set_option autoImplicit false

namespace DexCanon

open Descriptor

namespace Reference

-- ---------------------------------------------------------------------------
-- Defects
-- ---------------------------------------------------------------------------

/-- What stands in front of the first arrow of a text, and what stands behind it. -/
structure CutAtArrow (text : String) (owner member : List Char) : Prop where
  text_eq : text.toList = owner ++ '-' :: '>' :: member
  first : ¬ ['-', '>'] <:+: owner

/-- A defect of the class, or one of the member behind a class that has none. -/
inductive Defect (inMember : List Char → ParseError → Prop) (text : String) : ParseError → Prop
  | noArrow (h : ¬ ['-', '>'] <:+: text.toList) : Defect inMember text (.missingArrow text)
  | owner {owner member : List Char} {position : Nat} (hcut : CutAtArrow text owner member)
      (h : ¬ IsType owner) (hbytes : TypeBytes false owner position) :
      Defect inMember text (.malformedType (String.ofList owner) position)
  | member {owner member : List Char} {cause : ParseError} (hcut : CutAtArrow text owner member)
      (howner : IsType owner) (h : inMember member cause) : Defect inMember text cause

end Reference

inductive MethodRef.MemberDefect (text : String) : List Char → ParseError → Prop
  | noParameters {member : List Char} (h : '(' ∉ member) :
      MemberDefect text member (.missingParameters text)
  | noName (signature : List Char) : MemberDefect text ('(' :: signature) (.emptyName text)
  | openParameters {name signature : List Char} (hname : name ≠ []) (hfirst : '(' ∉ name)
      (h : ')' ∉ signature) :
      MemberDefect text (name ++ '(' :: signature) (.missingParameters text)
  | parameters {name params : List Char} (result : List Char) {position : Nat} (hname : name ≠ [])
      (hfirst : '(' ∉ name) (hclose : ')' ∉ params) (h : ¬ IsTypeList params)
      (hbytes : TypesBytes params position) :
      MemberDefect text (name ++ '(' :: (params ++ ')' :: result))
        (.malformedType (String.ofList params) position)
  | result {name params result : List Char} {position : Nat} (hname : name ≠ [])
      (hfirst : '(' ∉ name) (hclose : ')' ∉ params) (hparams : IsTypeList params)
      (h : ¬ IsType result ∧ result ≠ ['V']) (hbytes : TypeBytes true result position) :
      MemberDefect text (name ++ '(' :: (params ++ ')' :: result))
        (.malformedType (String.ofList result) position)

inductive FieldRef.MemberDefect (text : String) : List Char → ParseError → Prop
  | noColon {member : List Char} (h : ':' ∉ member) :
      MemberDefect text member (.missingFieldType text)
  | noName (type : List Char) : MemberDefect text (':' :: type) (.emptyName text)
  | type {name type : List Char} {position : Nat} (hname : name ≠ []) (hfirst : ':' ∉ name)
      (h : ¬ IsType type) (hbytes : TypeBytes false type position) :
      MemberDefect text (name ++ ':' :: type) (.malformedType (String.ofList type) position)

-- ---------------------------------------------------------------------------
-- Readers that fail
-- ---------------------------------------------------------------------------

namespace Reference

theorem bind_eq_error_iff {ε α β : Type} {x : Except ε α} {f : α → Except ε β} {e : ε} :
    x >>= f = .error e ↔ x = .error e ∨ ∃ a, x = .ok a ∧ f a = .error e := by
  cases x <;> simp [bind, Except.bind]

theorem map_eq_error_iff {ε α β : Type} {x : Except ε α} {f : α → β} {e : ε} :
    x.map f = .error e ↔ x = .error e := by
  cases x <;> simp [Except.map]

theorem pure_ne_error {ε α : Type} {a : α} {e : ε} : (pure a : Except ε α) ≠ .error e := by
  simp [pure, Except.pure]

variable {void : Bool} {text : List Char} {cause : ParseError}

theorem oneType_eq_error_iff : oneType void text = .error cause ↔
    ∃ position, ¬ IsResult void text ∧ TypeBytes void text position ∧
      .malformedType (String.ofList text) position = cause := by
  simp only [← and_assoc, ← single_eq_error_iff]
  unfold oneType
  cases single void text <;> simp

theorem typeList_eq_error_iff : typeList text = .error cause ↔
    ∃ position, ¬ IsTypeList text ∧ TypesBytes text position ∧
      .malformedType (String.ofList text) position = cause := by
  simp only [← and_assoc, ← split_eq_error_iff]
  unfold typeList
  cases Descriptor.split text <;> simp

theorem isTypeList_iff : IsTypeList text ↔ ∃ types, typeList text = .ok types := by
  constructor
  · rintro ⟨types, rfl, htypes⟩
    refine ⟨types.map String.ofList, typeList_eq_ok_iff.mpr ⟨?_, by simpa using htypes⟩⟩
    simp [List.map_map, Function.comp_def]
  · rintro ⟨types, h⟩
    obtain ⟨htext, htypes⟩ := typeList_eq_ok_iff.mp h
    exact ⟨types.map String.toList, htext, by simpa using htypes⟩

variable {α : Type} {mark : Char} {missing empty : ParseError}
  {next : List Char → List Char → Except ParseError α}

theorem upTo_eq_error_iff :
    (match Text.cut? [mark] text with
      | none => throw missing
      | some (front, back) => next front back) = .error cause ↔
      mark ∉ text ∧ missing = cause ∨
      ∃ front back, text = front ++ mark :: back ∧ mark ∉ front ∧
        next front back = .error cause := by
  constructor
  · intro h
    split at h
    · next hcut => exact .inl ⟨Text.cut?_mark_eq_none_iff.mp hcut, Except.error.inj h⟩
    · next front back hcut =>
      obtain ⟨htext, hfirst⟩ := Text.cut?_mark_eq_some_iff.mp hcut
      exact .inr ⟨front, back, htext, hfirst, h⟩
  · rintro (⟨hnot, rfl⟩ | ⟨front, back, htext, hfirst, h⟩)
    · rw [Text.cut?_mark_eq_none_iff.mpr hnot]
      rfl
    · rw [Text.cut?_mark_eq_some_iff.mpr ⟨htext, hfirst⟩]
      exact h

theorem named_eq_error_iff :
    (match Text.cut? [mark] text with
      | none => throw missing
      | some ([], _) => throw empty
      | some (name, back) => next name back) = .error cause ↔
      mark ∉ text ∧ missing = cause ∨ (∃ back, text = mark :: back ∧ empty = cause) ∨
      ∃ name back, text = name ++ mark :: back ∧ name ≠ [] ∧ mark ∉ name ∧
        next name back = .error cause := by
  constructor
  · intro h
    split at h
    · next hcut => exact .inl ⟨Text.cut?_mark_eq_none_iff.mp hcut, Except.error.inj h⟩
    · next back hcut =>
      obtain ⟨htext, -⟩ := Text.cut?_mark_eq_some_iff.mp hcut
      exact .inr (.inl ⟨back, htext, Except.error.inj h⟩)
    · next name back hne hcut =>
      obtain ⟨htext, hfirst⟩ := Text.cut?_mark_eq_some_iff.mp hcut
      exact .inr (.inr ⟨name, back, htext, hne, hfirst, h⟩)
  · rintro (⟨hnot, rfl⟩ | ⟨back, rfl, rfl⟩ | ⟨name, back, htext, hne, hfirst, h⟩)
    · rw [Text.cut?_mark_eq_none_iff.mpr hnot]
      rfl
    · rw [Text.cut?_mark_eq_some_iff.mpr ⟨(List.nil_append _).symm, List.not_mem_nil⟩]
      rfl
    · rw [Text.cut?_mark_eq_some_iff.mpr ⟨htext, hfirst⟩]
      cases name with
      | nil => exact absurd rfl hne
      | cons c name => exact h

theorem owner_bind_eq_error_iff {text : String}
    {next : String × List Char → Except ParseError α} {inMember : List Char → ParseError → Prop}
    (hnext : ∀ type member cause, next (type, member) = .error cause ↔ inMember member cause) :
    owner text >>= next = .error cause ↔ Defect inMember text cause := by
  have harrow : ['-', '>'] ≠ [] := List.cons_ne_nil '-' ['>']
  rw [bind_eq_error_iff]
  constructor
  · rintro (h | ⟨⟨type, member⟩, howner, h⟩)
    · unfold owner at h
      split at h
      · next hcut =>
        obtain rfl := Except.error.inj h
        exact .noArrow ((Text.cut?_eq_none_iff harrow).mp hcut)
      · next front member hcut =>
        obtain ⟨position, hnot, hbytes, rfl⟩ := oneType_eq_error_iff.mp (map_eq_error_iff.mp h)
        obtain ⟨htext, hfirst⟩ := Text.cut?_arrow_eq_some_iff.mp hcut
        exact .owner ⟨htext, hfirst⟩ (by simpa using hnot) hbytes
    · obtain ⟨htext, htype, hfirst⟩ := owner_eq_ok_iff.mp howner
      exact .member ⟨htext, hfirst⟩ htype ((hnext type member cause).mp h)
  · intro h
    cases h with
    | noArrow h =>
      refine .inl ?_
      rw [owner, (Text.cut?_eq_none_iff harrow).mpr h]
    | @owner front member position hcut hnot hbytes =>
      refine .inl ?_
      rw [owner, Text.cut?_arrow_eq_some_iff.mpr ⟨hcut.text_eq, hcut.first⟩]
      refine map_eq_error_iff.mpr (oneType_eq_error_iff.mpr ?_)
      exact ⟨position, by simpa using hnot, hbytes, rfl⟩
    | @member front member cause hcut htype h =>
      refine .inr ⟨(String.ofList front, member), ?_, (hnext _ member cause).mpr h⟩
      rw [owner_eq_ok_iff, String.toList_ofList]
      exact ⟨hcut.text_eq, htype, hcut.first⟩

end Reference

theorem MethodRef.parse_eq_error_iff {text : String} {cause : ParseError} :
    parse text = .error cause ↔ Reference.Defect (MemberDefect text) text cause := by
  refine Reference.owner_bind_eq_error_iff ?_
  intro owner member cause
  refine Reference.named_eq_error_iff.trans ?_
  constructor
  · rintro (⟨hnot, rfl⟩ | ⟨back, rfl, rfl⟩ | ⟨name, signature, rfl, hne, hfirst, h⟩)
    · exact .noParameters hnot
    · exact .noName back
    rcases Reference.upTo_eq_error_iff.mp h with ⟨hnot, rfl⟩ | ⟨front, back, rfl, hclose, h⟩
    · exact .openParameters hne hfirst hnot
    rcases Reference.bind_eq_error_iff.mp h with h | ⟨params, hparams, h⟩
    · obtain ⟨position, hnot, hbytes, rfl⟩ := Reference.typeList_eq_error_iff.mp h
      exact .parameters back hne hfirst hclose hnot hbytes
    have htypes : IsTypeList front := Reference.isTypeList_iff.mpr ⟨params, hparams⟩
    rcases Reference.bind_eq_error_iff.mp h with h | ⟨result, -, h⟩
    · obtain ⟨position, hnot, hbytes, rfl⟩ := Reference.oneType_eq_error_iff.mp h
      exact .result hne hfirst hclose htypes (by simpa using hnot) hbytes
    · exact absurd h Reference.pure_ne_error
  · intro h
    cases h with
    | noParameters h => exact .inl ⟨h, rfl⟩
    | noName signature => exact .inr (.inl ⟨signature, rfl, rfl⟩)
    | openParameters hne hfirst h =>
      refine .inr (.inr ⟨_, _, rfl, hne, hfirst, ?_⟩)
      exact Reference.upTo_eq_error_iff.mpr (.inl ⟨h, rfl⟩)
    | parameters result hne hfirst hclose h hbytes =>
      refine .inr (.inr ⟨_, _, rfl, hne, hfirst, ?_⟩)
      refine Reference.upTo_eq_error_iff.mpr (.inr ⟨_, _, rfl, hclose, ?_⟩)
      refine Reference.bind_eq_error_iff.mpr (.inl ?_)
      exact Reference.typeList_eq_error_iff.mpr ⟨_, h, hbytes, rfl⟩
    | result hne hfirst hclose hparams h hbytes =>
      obtain ⟨params, hparams⟩ := Reference.isTypeList_iff.mp hparams
      refine .inr (.inr ⟨_, _, rfl, hne, hfirst, ?_⟩)
      refine Reference.upTo_eq_error_iff.mpr (.inr ⟨_, _, rfl, hclose, ?_⟩)
      refine Reference.bind_eq_error_iff.mpr (.inr ⟨params, hparams, ?_⟩)
      refine Reference.bind_eq_error_iff.mpr (.inl ?_)
      exact Reference.oneType_eq_error_iff.mpr ⟨_, by simpa using h, hbytes, rfl⟩

theorem FieldRef.parse_eq_error_iff {text : String} {cause : ParseError} :
    parse text = .error cause ↔ Reference.Defect (MemberDefect text) text cause := by
  refine Reference.owner_bind_eq_error_iff ?_
  intro owner member cause
  refine Reference.named_eq_error_iff.trans ?_
  constructor
  · rintro (⟨hnot, rfl⟩ | ⟨back, rfl, rfl⟩ | ⟨name, back, rfl, hne, hfirst, h⟩)
    · exact .noColon hnot
    · exact .noName back
    rcases Reference.bind_eq_error_iff.mp h with h | ⟨type, -, h⟩
    · obtain ⟨position, hnot, hbytes, rfl⟩ := Reference.oneType_eq_error_iff.mp h
      exact .type hne hfirst (by simpa using hnot) hbytes
    · exact absurd h Reference.pure_ne_error
  · intro h
    cases h with
    | noColon h => exact .inl ⟨h, rfl⟩
    | noName type => exact .inr (.inl ⟨type, rfl, rfl⟩)
    | type hne hfirst h hbytes =>
      refine .inr (.inr ⟨_, _, rfl, hne, hfirst, ?_⟩)
      refine Reference.bind_eq_error_iff.mpr (.inl ?_)
      exact Reference.oneType_eq_error_iff.mpr ⟨_, by simpa using h, hbytes, rfl⟩

-- ---------------------------------------------------------------------------
-- What is reported
-- ---------------------------------------------------------------------------

namespace Reference

theorem forall_ne_error_iff {ε α : Type} {x : Except ε α} :
    (∀ cause, x ≠ .error cause) ↔ ∃ a, x = .ok a := by
  cases x <;> simp

/-- Reading fails exactly with the defect that the text has, and a text without a defect is read: it
is the printed form of a well-formed reference. -/
theorem parse_reports_defect :
    (∀ (text : String) (cause : ParseError),
      MethodRef.parse text = .error cause ↔ Defect (MethodRef.MemberDefect text) text cause) ∧
    (∀ text : String, (∀ cause, ¬ Defect (MethodRef.MemberDefect text) text cause) ↔
      ∃ m : MethodRef, MethodRef.parse text = .ok m ∧ m.WellFormed ∧ m.print = text) ∧
    (∀ (text : String) (cause : ParseError),
      FieldRef.parse text = .error cause ↔ Defect (FieldRef.MemberDefect text) text cause) ∧
    (∀ text : String, (∀ cause, ¬ Defect (FieldRef.MemberDefect text) text cause) ↔
      ∃ f : FieldRef, FieldRef.parse text = .ok f ∧ f.WellFormed ∧ f.print = text) := by
  refine ⟨fun _ _ => MethodRef.parse_eq_error_iff, ?_, fun _ _ => FieldRef.parse_eq_error_iff, ?_⟩
  · intro text
    simp only [← MethodRef.parse_eq_error_iff, ← MethodRef.parse_eq_ok_iff, and_self]
    exact forall_ne_error_iff
  · intro text
    simp only [← FieldRef.parse_eq_error_iff, ← FieldRef.parse_eq_ok_iff, and_self]
    exact forall_ne_error_iff

example : MethodRef.parse "[Lé;é->f(Q" = .error (.malformedType "[Lé;é" 5) ∧
    MethodRef.parse "LA;->(Q" = .error (.emptyName "LA;->(Q") ∧
    MethodRef.parse "LA;->f(ILé;Q)W" = .error (.malformedType "ILé;Q" 5) ∧
    FieldRef.parse "LA;->f:[V" = .error (.malformedType "[V" 0) := by
  decide +kernel

end Reference

end DexCanon
