import Mathlib.Data.List.Infix
import DexCanon.Proofs.Descriptor
import DexCanon.Reference.Parser

/-!
# Reading what is printed

A reference prints to a text from which it can be read back exactly if its parts fit the grammar and
do not hide a mark of the printed form in front of the real one. Nothing else can be read: every
text that is a method or field reference is the printed form of a well-formed one.
-/

set_option autoImplicit false

namespace DexCanon

namespace Reference

theorem bind_eq_ok_iff {ε α β : Type} {x : Except ε α} {f : α → Except ε β} {b : β} :
    x >>= f = .ok b ↔ ∃ a, x = .ok a ∧ f a = .ok b := by
  cases x <;> simp [bind, Except.bind]

theorem map_eq_ok_iff {ε α β : Type} {x : Except ε α} {f : α → β} {b : β} :
    x.map f = .ok b ↔ ∃ a, x = .ok a ∧ f a = b := by
  cases x <;> simp [Except.map]

theorem oneType_eq_ok_iff {void : Bool} {text : List Char} {type : String} :
    oneType void text = .ok type ↔ text = type.toList ∧ Descriptor.IsResult void type.toList := by
  unfold oneType
  constructor
  · intro h
    split at h
    · next hsingle =>
      obtain rfl := Except.ok.inj h
      rw [String.toList_ofList]
      exact ⟨rfl, Descriptor.single_eq_ok_iff.mp hsingle⟩
    · cases h
  · rintro ⟨rfl, h⟩
    rw [Descriptor.single_eq_ok_iff.mpr h, String.ofList_toList]

theorem typeList_eq_ok_iff {text : List Char} {types : List String} :
    typeList text = .ok types ↔ text = (types.map String.toList).flatten ∧
      ∀ type ∈ types, Descriptor.IsType type.toList := by
  unfold typeList
  constructor
  · intro h
    split at h
    · next found hsplit =>
      obtain rfl := Except.ok.inj h
      obtain ⟨htext, htypes⟩ := Descriptor.split_eq_ok_iff.mp hsplit
      have hback : (found.map String.ofList).map String.toList = found := by
        simp [List.map_map, Function.comp_def]
      refine ⟨by rw [hback, htext], ?_⟩
      simpa using htypes
    · cases h
  · rintro ⟨rfl, htypes⟩
    have hlists : ∀ type ∈ types.map String.toList, Descriptor.IsType type := by
      simpa using htypes
    rw [Descriptor.split_flatten hlists]
    simp [List.map_map, Function.comp_def]

theorem owner_eq_ok_iff {text type : String} {member : List Char} :
    owner text = .ok (type, member) ↔
      text.toList = type.toList ++ '-' :: '>' :: member ∧
        Descriptor.IsType type.toList ∧ ¬ ['-', '>'] <:+: type.toList := by
  unfold owner
  constructor
  · intro h
    split at h
    · cases h
    · next front back hcut =>
      obtain ⟨type', hone, heq⟩ := map_eq_ok_iff.mp h
      obtain ⟨rfl, rfl⟩ := Prod.mk.inj heq
      obtain ⟨rfl, htype | ⟨hvoid, -⟩⟩ := oneType_eq_ok_iff.mp hone
      · obtain ⟨htext, hfirst⟩ := Text.cut?_arrow_eq_some_iff.mp hcut
        exact ⟨htext, htype, hfirst⟩
      · cases hvoid
  · rintro ⟨htext, htype, hfirst⟩
    rw [Text.cut?_arrow_eq_some_iff.mpr ⟨htext, hfirst⟩]
    exact map_eq_ok_iff.mpr ⟨type, oneType_eq_ok_iff.mpr ⟨rfl, .inl htype⟩, rfl⟩

variable {α : Type} {mark : Char} {text : List Char} {missing empty : ParseError}
  {next : List Char → List Char → Except ParseError α} {result : α}

theorem upTo_eq_ok_iff :
    (match Text.cut? [mark] text with
      | none => throw missing
      | some (front, back) => next front back) = .ok result ↔
      ∃ front back, text = front ++ mark :: back ∧ mark ∉ front ∧ next front back = .ok result := by
  constructor
  · intro h
    split at h
    · cases h
    · next front back hcut =>
      obtain ⟨htext, hmark⟩ := Text.cut?_mark_eq_some_iff.mp hcut
      exact ⟨front, back, htext, hmark, h⟩
  · rintro ⟨front, back, htext, hmark, h⟩
    rw [Text.cut?_mark_eq_some_iff.mpr ⟨htext, hmark⟩]
    exact h

theorem named_eq_ok_iff :
    (match Text.cut? [mark] text with
      | none => throw missing
      | some ([], _) => throw empty
      | some (name, back) => next name back) = .ok result ↔
      ∃ name back, text = name ++ mark :: back ∧ name ≠ [] ∧ mark ∉ name ∧
        next name back = .ok result := by
  constructor
  · intro h
    split at h
    · cases h
    · cases h
    · next name back hne hcut =>
      obtain ⟨htext, hmark⟩ := Text.cut?_mark_eq_some_iff.mp hcut
      exact ⟨name, back, htext, hne, hmark, h⟩
  · rintro ⟨name, back, htext, hne, hmark, h⟩
    rw [Text.cut?_mark_eq_some_iff.mpr ⟨htext, hmark⟩]
    cases name with
    | nil => exact absurd rfl hne
    | cons c name => exact h

end Reference

namespace MethodRef

/-- The parts are what the printed form takes them for: types where it has types, and no mark in a
part that would end it early. -/
structure WellFormed (m : MethodRef) : Prop where
  owner : Descriptor.IsType m.owner.toList
  owner_no_arrow : ¬ ['-', '>'] <:+: m.owner.toList
  name_ne : m.name ≠ ""
  name_no_paren : '(' ∉ m.name.toList
  params : ∀ param ∈ m.params, Descriptor.IsType param.toList ∧ ')' ∉ param.toList
  result : Descriptor.IsType m.result.toList ∨ m.result = "V"

instance (m : MethodRef) : Decidable m.WellFormed :=
  decidable_of_iff
    (Descriptor.IsType m.owner.toList ∧ ¬ ['-', '>'] <:+: m.owner.toList ∧ m.name ≠ "" ∧
      '(' ∉ m.name.toList ∧
      (∀ param ∈ m.params, Descriptor.IsType param.toList ∧ ')' ∉ param.toList) ∧
      (Descriptor.IsType m.result.toList ∨ m.result = "V"))
    ⟨fun ⟨ho, ha, hn, hp, hps, hr⟩ => ⟨ho, ha, hn, hp, hps, hr⟩,
      fun h => ⟨h.owner, h.owner_no_arrow, h.name_ne, h.name_no_paren, h.params, h.result⟩⟩

theorem toList_print (m : MethodRef) : m.print.toList =
    m.owner.toList ++ '-' :: '>' :: (m.name.toList ++ '(' ::
      ((m.params.map String.toList).flatten ++ ')' :: m.result.toList)) := by
  simp [print, List.flatMap_def]

theorem wellFormed_of_parse {text : String} {m : MethodRef} (h : parse text = .ok m) :
    m.WellFormed ∧ m.print = text := by
  unfold parse at h
  obtain ⟨⟨owner, member⟩, howner, hmember⟩ := Reference.bind_eq_ok_iff.mp h
  obtain ⟨htext, htype, harrow⟩ := Reference.owner_eq_ok_iff.mp howner
  obtain ⟨name, signature, rfl, hne, hparen, hsignature⟩ := Reference.named_eq_ok_iff.mp hmember
  obtain ⟨front, back, rfl, hclose, hparts⟩ := Reference.upTo_eq_ok_iff.mp hsignature
  obtain ⟨params, hparams, hrest⟩ := Reference.bind_eq_ok_iff.mp hparts
  obtain ⟨result, hresult, hm⟩ := Reference.bind_eq_ok_iff.mp hrest
  obtain ⟨rfl, htypes⟩ := Reference.typeList_eq_ok_iff.mp hparams
  obtain ⟨rfl, hback⟩ := Reference.oneType_eq_ok_iff.mp hresult
  obtain rfl := Except.ok.inj hm
  refine ⟨⟨htype, harrow, ?_, ?_, ?_, ?_⟩, ?_⟩
  · intro hempty
    exact hne (by simpa using hempty)
  · simpa using hparen
  · intro param hp
    refine ⟨htypes param hp, ?_⟩
    intro hin
    exact hclose (List.mem_flatten.mpr ⟨param.toList, List.mem_map_of_mem hp, hin⟩)
  · simpa [Descriptor.IsResult, ← String.toList_inj] using hback
  · rw [← String.toList_inj, toList_print, htext, String.toList_ofList]

theorem WellFormed.parse_print {m : MethodRef} (h : m.WellFormed) : parse m.print = .ok m := by
  have howner := Reference.owner_eq_ok_iff.mpr ⟨m.toList_print, h.owner, h.owner_no_arrow⟩
  have hname : m.name.toList ≠ [] := fun hnil => h.name_ne (String.toList_eq_nil_iff.mp hnil)
  have hclose : ')' ∉ (m.params.map String.toList).flatten := by
    intro hin
    obtain ⟨text, htext, hmem⟩ := List.mem_flatten.mp hin
    obtain ⟨param, hp, rfl⟩ := List.mem_map.mp htext
    exact (h.params param hp).2 hmem
  have hparams : Reference.typeList (m.params.map String.toList).flatten = .ok m.params :=
    Reference.typeList_eq_ok_iff.mpr ⟨rfl, fun param hp => (h.params param hp).1⟩
  have hresult : Reference.oneType true m.result.toList = .ok m.result := by
    refine Reference.oneType_eq_ok_iff.mpr ⟨rfl, ?_⟩
    simpa [Descriptor.IsResult, ← String.toList_inj] using h.result
  refine Reference.bind_eq_ok_iff.mpr ⟨_, howner, ?_⟩
  refine Reference.named_eq_ok_iff.mpr ⟨_, _, rfl, hname, h.name_no_paren, ?_⟩
  refine Reference.upTo_eq_ok_iff.mpr ⟨_, _, rfl, hclose, ?_⟩
  refine Reference.bind_eq_ok_iff.mpr ⟨_, hparams, ?_⟩
  refine Reference.bind_eq_ok_iff.mpr ⟨_, hresult, ?_⟩
  rw [String.ofList_toList]
  rfl

theorem parse_eq_ok_iff {text : String} {m : MethodRef} :
    parse text = .ok m ↔ m.WellFormed ∧ m.print = text := by
  constructor
  · exact wellFormed_of_parse
  · rintro ⟨h, rfl⟩
    exact h.parse_print

/-- Printing and reading are inverse exactly on the well-formed references: a reference reads back
from its printed form if and only if it is well-formed, and a text that can be read is the printed
form of what it reads as, which is well-formed. -/
theorem parse_print_iff_wellFormed :
    (∀ m : MethodRef, parse m.print = .ok m ↔ m.WellFormed) ∧
      (∀ (text : String) (m : MethodRef), parse text = .ok m → m.WellFormed ∧ m.print = text) ∧
      (∀ text : String,
        (∃ m, parse text = .ok m) ↔ ∃ m : MethodRef, m.WellFormed ∧ m.print = text) ∧
      (∀ (first second : String) (m : MethodRef),
        parse first = .ok m → parse second = .ok m → first = second) := by
  refine ⟨?_, ?_, ?_, ?_⟩
  · intro m
    rw [parse_eq_ok_iff]
    exact and_iff_left rfl
  · intro text m
    exact parse_eq_ok_iff.mp
  · intro text
    simp only [parse_eq_ok_iff]
  · intro first second m hfirst hsecond
    rw [← (parse_eq_ok_iff.mp hfirst).2, ← (parse_eq_ok_iff.mp hsecond).2]

/-- Marks of the printed form may stand in a part that they do not end. -/
theorem parse_print_iff_wellFormed_marks :
    let m : MethodRef := ⟨"[LA(:;", "x->y)", ["[[I", "Lb(->;", "LL;"], "L(a)->;"⟩
    m.print = "[LA(:;->x->y)([[ILb(->;LL;)L(a)->;" ∧ m.WellFormed ∧ parse m.print = .ok m := by
  intro m
  have hwell : m.WellFormed := by decide +kernel
  exact ⟨by decide, hwell, (parse_print_iff_wellFormed.1 m).mpr hwell⟩

end MethodRef

namespace FieldRef

/-- The class and the type are types, and neither the class nor the name holds the mark that ends
it. Nothing ends the type, so it may hold any mark. -/
structure WellFormed (f : FieldRef) : Prop where
  owner : Descriptor.IsType f.owner.toList
  owner_no_arrow : ¬ ['-', '>'] <:+: f.owner.toList
  name_ne : f.name ≠ ""
  name_no_colon : ':' ∉ f.name.toList
  type : Descriptor.IsType f.type.toList

instance (f : FieldRef) : Decidable f.WellFormed :=
  decidable_of_iff
    (Descriptor.IsType f.owner.toList ∧ ¬ ['-', '>'] <:+: f.owner.toList ∧ f.name ≠ "" ∧
      ':' ∉ f.name.toList ∧ Descriptor.IsType f.type.toList)
    ⟨fun ⟨ho, ha, hn, hc, ht⟩ => ⟨ho, ha, hn, hc, ht⟩,
      fun h => ⟨h.owner, h.owner_no_arrow, h.name_ne, h.name_no_colon, h.type⟩⟩

theorem toList_print (f : FieldRef) : f.print.toList =
    f.owner.toList ++ '-' :: '>' :: (f.name.toList ++ ':' :: f.type.toList) := by
  simp [print]

theorem wellFormed_of_parse {text : String} {f : FieldRef} (h : parse text = .ok f) :
    f.WellFormed ∧ f.print = text := by
  unfold parse at h
  obtain ⟨⟨owner, member⟩, howner, hmember⟩ := Reference.bind_eq_ok_iff.mp h
  obtain ⟨htext, hclass, harrow⟩ := Reference.owner_eq_ok_iff.mp howner
  obtain ⟨name, back, rfl, hne, hcolon, hback⟩ := Reference.named_eq_ok_iff.mp hmember
  obtain ⟨type, htype, hf⟩ := Reference.bind_eq_ok_iff.mp hback
  obtain ⟨rfl, hresult⟩ := Reference.oneType_eq_ok_iff.mp htype
  obtain rfl := Except.ok.inj hf
  refine ⟨⟨hclass, harrow, ?_, ?_, ?_⟩, ?_⟩
  · intro hempty
    exact hne (by simpa using hempty)
  · simpa using hcolon
  · simpa [Descriptor.IsResult] using hresult
  · rw [← String.toList_inj, toList_print, htext, String.toList_ofList]

theorem WellFormed.parse_print {f : FieldRef} (h : f.WellFormed) : parse f.print = .ok f := by
  have howner := Reference.owner_eq_ok_iff.mpr ⟨f.toList_print, h.owner, h.owner_no_arrow⟩
  have hname : f.name.toList ≠ [] := fun hnil => h.name_ne (String.toList_eq_nil_iff.mp hnil)
  have htype : Reference.oneType false f.type.toList = .ok f.type :=
    Reference.oneType_eq_ok_iff.mpr ⟨rfl, .inl h.type⟩
  refine Reference.bind_eq_ok_iff.mpr ⟨_, howner, ?_⟩
  refine Reference.named_eq_ok_iff.mpr ⟨_, _, rfl, hname, h.name_no_colon, ?_⟩
  refine Reference.bind_eq_ok_iff.mpr ⟨_, htype, ?_⟩
  rw [String.ofList_toList]
  rfl

theorem parse_eq_ok_iff {text : String} {f : FieldRef} :
    parse text = .ok f ↔ f.WellFormed ∧ f.print = text := by
  constructor
  · exact wellFormed_of_parse
  · rintro ⟨h, rfl⟩
    exact h.parse_print

/-- A field reference reads back from its printed form if and only if it is well-formed, and a text
that can be read is the printed form of what it reads as, which is well-formed. -/
theorem reads_back_iff_wellFormed :
    (∀ f : FieldRef, parse f.print = .ok f ↔ f.WellFormed) ∧
      ∀ (text : String) (f : FieldRef), parse text = .ok f → f.WellFormed ∧ f.print = text := by
  refine ⟨?_, ?_⟩
  · intro f
    rw [parse_eq_ok_iff]
    exact and_iff_left rfl
  · intro text f
    exact parse_eq_ok_iff.mp

/-- Only the first arrow and the first colon behind it count, and halves of an arrow on both sides
of the printed one do no harm. -/
theorem reads_back_iff_wellFormed_marks :
    let f : FieldRef := ⟨"[L-:>;", ">é->(", "[La:->b;"⟩
    f.print = "[L-:>;->>é->(:[La:->b;" ∧ parse f.print = .ok f ∧ f.WellFormed := by
  intro f
  have hwell : f.WellFormed := by decide +kernel
  have hparse : parse f.print = .ok f := (reads_back_iff_wellFormed.1 f).mpr hwell
  exact ⟨by decide, hparse, (reads_back_iff_wellFormed.2 f.print f hparse).1⟩

end FieldRef

end DexCanon
