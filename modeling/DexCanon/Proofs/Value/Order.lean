import DexCanon.Proofs.Text.Units
import DexCanon.Workspace.Handle

/-!
# The order of values is linear

Two values, elements, annotations, sets of elements or references always have an order, and only
what is the same in every part, to any depth, is called equal. Values of two types stand as the
codes of their types do, sequences stand as their first difference says, and one that begins
another comes first.
-/

set_option autoImplicit false

namespace DexCanon

-- ---------------------------------------------------------------------------
-- References
-- ---------------------------------------------------------------------------

theorem compareTypes_eq (a b : List String) :
    compareTypes a b = List.compareLex Text.compareUnits a b := by
  refine eq_compareLex rfl ?_ ?_ ?_ a b
  · exact fun _ _ => Nat.compare_eq_lt.mpr (Nat.succ_pos _)
  · exact fun _ _ => Nat.compare_eq_gt.mpr (Nat.succ_pos _)
  · intro x a y b
    unfold compareTypes
    rw [List.zipWith_cons_cons]
    cases Text.compareUnits x y <;> simp [compare_succ_succ]

theorem MethodRef.linearAt (m : MethodRef) : LinearAt MethodRef.compare m := by
  let parts (m : MethodRef) : String × String × String × List String :=
    (m.owner, m.name, m.result, m.params)
  have hparams : LinearAt compareTypes m.params := by
    have heq : compareTypes = List.compareLex Text.compareUnits := by
      funext a b
      exact compareTypes_eq a b
    rw [heq]
    exact .list fun param _ => .of_lawful param
  have hinj : ∀ a b, parts a = parts b → a = b := by
    rintro ⟨_, _, _, _⟩ ⟨_, _, _, _⟩ h
    simp_all [parts]
  exact LinearAt.comap hinj <|
    .prod (.of_lawful m.owner) <| .prod (.of_lawful m.name) <| .prod (.of_lawful m.result) hparams

theorem FieldRef.linearAt (f : FieldRef) : LinearAt FieldRef.compare f := by
  let parts (f : FieldRef) : String × String × String := (f.owner, f.name, f.type)
  have hinj : ∀ a b, parts a = parts b → a = b := by
    rintro ⟨_, _, _⟩ ⟨_, _, _⟩ h
    simp_all [parts]
  exact LinearAt.comap hinj <|
    .prod (.of_lawful f.owner) <| .prod (.of_lawful f.name) (.of_lawful f.type)

-- ---------------------------------------------------------------------------
-- Scalars
-- ---------------------------------------------------------------------------

theorem ValueType.code_inj {t u : ValueType} (h : t.code = u.code) : t = u := by
  have hcode := ValueType.ofCode?_code t
  rw [h, ValueType.ofCode?_code] at hcode
  exact (Option.some.inj hcode).symm

/-- The sign bit is seen in the sign of the key and the other bits in its size. -/
theorem totalOrderKey_inj {width a b : Nat} (h : totalOrderKey width a = totalOrderKey width b) :
    a = b := by
  unfold totalOrderKey at h
  generalize Nat.pow 2 (width - 1) = half at h
  split at h <;> split at h <;> omega

theorem Scalar.eq_of_parts {s t : Scalar} (htype : s.valueType = t.valueType)
    (hnumber : s.number = t.number) (htext : s.text = t.text) : s = t := by
  cases s <;> cases t <;> simp only [valueType, reduceCtorEq] at htype
  case byte.byte => exact congrArg byte (Int8.toInt_inj.mp hnumber)
  case short.short => exact congrArg short (Int16.toInt_inj.mp hnumber)
  case char.char => exact congrArg char (UInt16.toNat_inj.mp (Int.ofNat.inj hnumber))
  case int.int => exact congrArg int (Int32.toInt_inj.mp hnumber)
  case long.long => exact congrArg long (Int64.toInt_inj.mp hnumber)
  case float.float => exact congrArg float (UInt32.toNat_inj.mp (totalOrderKey_inj hnumber))
  case double.double => exact congrArg double (UInt64.toNat_inj.mp (totalOrderKey_inj hnumber))
  case string.string => exact congrArg string htext
  case type.type => exact congrArg type htext
  case null.null => rfl
  case boolean.boolean a b => cases a <;> cases b <;> simp [number] at hnumber ⊢

theorem Scalar.linearAt (s : Scalar) : LinearAt Scalar.compare s := by
  let parts (s : Scalar) : Nat × Int × String := (s.valueType.code, s.number, s.text)
  have hinj : ∀ a b, parts a = parts b → a = b := by
    intro a b h
    simp only [parts, Prod.mk.injEq] at h
    exact Scalar.eq_of_parts (ValueType.code_inj h.1) h.2.1 h.2.2
  have hcode : LinearAt (compare : Nat → Nat → Ordering) s.valueType.code := .of_lawful _
  have hnumber : LinearAt (compare : Int → Int → Ordering) s.number := .of_lawful _
  exact LinearAt.comap hinj <| .prod hcode <| .prod hnumber (.of_lawful s.text)

-- ---------------------------------------------------------------------------
-- Sequences of values and elements
-- ---------------------------------------------------------------------------

theorem compareItems_eq (a b : List Value) :
    compareItems a b = List.compareLex Value.compare a b := by
  refine eq_compareLex ?_ ?_ ?_ ?_ a b <;> intros <;> rw [compareItems]

theorem compareElements_eq (a b : List Element) :
    compareElements a b = List.compareLex Element.compare a b := by
  refine eq_compareLex ?_ ?_ ?_ ?_ a b <;> intros <;> rw [compareElements]

theorem compareElementSets_eq (a b : ElementSet) :
    compareElementSets a b = List.compareLex Element.compare a.members b.members := by
  rw [← compareElements_eq]
  cases a
  cases b
  rw [compareElementSets]

theorem Element.compare_eq (a b : Element) :
    a.compare b = (Text.compareUnits a.name b.name).then (a.value.compare b.value) := by
  cases a
  cases b
  rw [Element.compare]

theorem Annot.compare_eq (a b : Annot) :
    a.compare b =
      (Text.compareUnits a.type b.type).then (compareElementSets a.elements b.elements) := by
  cases a
  cases b
  rw [Annot.compare]

-- ---------------------------------------------------------------------------
-- Values
-- ---------------------------------------------------------------------------

namespace Value

theorem compare_of_code_ne {a b : Value} (h : a.valueType.code ≠ b.valueType.code) :
    a.compare b = compare a.valueType.code b.valueType.code := by
  unfold Value.compare
  split
  case h_1 s t =>
    -- Scalars are compared as pairs of a code and what it holds.
    have hcode : compare s.valueType t.valueType ≠ .eq := mt Nat.compare_eq_eq.mp h
    show (compare s.valueType t.valueType).then _ = compare s.valueType t.valueType
    cases hst : compare s.valueType t.valueType with
    | eq => exact absurd hst hcode
    | _ => rfl
  case h_7 => rfl
  all_goals exact absurd rfl h

/-- The ways to make a value of a type. -/
def MadeAs : ValueType → Value → Prop
  | .field, v => ∃ f, .field f = v
  | .method, v => ∃ m, .method m = v
  | .enum, v => ∃ f, .enum f = v
  | .array, v => ∃ items, .array items = v
  | .annot, v => ∃ a, .annot a = v
  | _, v => ∃ s, .scalar s = v

theorem madeAs_valueType (v : Value) : MadeAs v.valueType v := by
  cases v with
  | scalar s => cases s <;> exact ⟨_, rfl⟩
  | _ => exact ⟨_, rfl⟩

end Value

-- ---------------------------------------------------------------------------
-- What holds values is linear where the values that it holds are
-- ---------------------------------------------------------------------------

theorem Element.linearAt_of_value {e : Element} (h : LinearAt Value.compare e.value) :
    LinearAt Element.compare e := by
  have hinj : ∀ a b : Element, (a.name, a.value) = (b.name, b.value) → a = b := by
    rintro ⟨_, _⟩ ⟨_, _⟩ hab
    simp_all
  have hcmp : Element.compare =
      fun a b => (Text.compareUnits a.name b.name).then (a.value.compare b.value) := by
    funext a b
    exact a.compare_eq b
  have hname : LinearAt Text.compareUnits e.name := .of_lawful e.name
  rw [hcmp]
  exact (hname.prod h).comap hinj

theorem ElementSet.linearAt_of_members {set : ElementSet}
    (h : ∀ e ∈ set.members, LinearAt Element.compare e) : LinearAt compareElementSets set := by
  have hinj : ∀ a b : ElementSet, a.members = b.members → a = b := by
    rintro ⟨_⟩ ⟨_⟩ hab
    exact congrArg _ hab
  have hcmp : compareElementSets =
      fun a b => List.compareLex Element.compare a.members b.members := by
    funext a b
    exact compareElementSets_eq a b
  rw [hcmp]
  exact (LinearAt.list h).comap hinj

theorem Annot.linearAt_of_elements {a : Annot} (h : LinearAt compareElementSets a.elements) :
    LinearAt Annot.compare a := by
  have hinj : ∀ a b : Annot, (a.type, a.elements) = (b.type, b.elements) → a = b := by
    rintro ⟨_, _⟩ ⟨_, _⟩ hab
    simp_all
  have hcmp : Annot.compare = fun a b =>
      (Text.compareUnits a.type b.type).then (compareElementSets a.elements b.elements) := by
    funext a b
    exact a.compare_eq b
  have htype : LinearAt Text.compareUnits a.type := .of_lawful a.type
  rw [hcmp]
  exact (htype.prod h).comap hinj

theorem Value.linearAt_make {α : Type} {make : α → Value} {cmp : α → α → Ordering} {x : α}
    (hmade : MadeAs (make x).valueType = fun v => ∃ y, make y = v)
    (hinj : ∀ y z, make y = make z → y = z) (hcmp : ∀ y z, (make y).compare (make z) = cmp y z)
    (h : LinearAt cmp x) : LinearAt Value.compare (make x) := by
  refine .ranked (fun _ _ => compare_of_code_ne) ?_ hinj hcmp h
  intro v hcode
  have hv := v.madeAs_valueType
  rw [ValueType.code_inj hcode, hmade] at hv
  exact hv

theorem Value.linearAt (v : Value) : LinearAt Value.compare v := by
  -- On the first of two values: what it holds is compared before the second tells how it was made.
  induction v using Value.induction with
  | scalar s =>
    have hmade : MadeAs s.valueType = fun v => ∃ t, .scalar t = v := by cases s <;> rfl
    exact linearAt_make hmade (fun _ _ => scalar.inj) (fun _ _ => by rw [Value.compare]) s.linearAt
  | field f =>
    exact linearAt_make rfl (fun _ _ => field.inj) (fun _ _ => by rw [Value.compare]) f.linearAt
  | method m =>
    exact linearAt_make rfl (fun _ _ => method.inj) (fun _ _ => by rw [Value.compare]) m.linearAt
  | enum f =>
    exact linearAt_make rfl (fun _ _ => enum.inj) (fun _ _ => by rw [Value.compare]) f.linearAt
  | array items ih =>
    refine linearAt_make rfl (fun _ _ => array.inj) (fun a b => ?_) (.list ih)
    rw [Value.compare, compareItems_eq]
  | annot type members ih =>
    refine linearAt_make rfl (fun _ _ => annot.inj) (fun _ _ => by rw [Value.compare]) ?_
    refine Annot.linearAt_of_elements (ElementSet.linearAt_of_members fun e he => ?_)
    exact Element.linearAt_of_value (ih e he)

theorem Element.linearAt (e : Element) : LinearAt Element.compare e :=
  linearAt_of_value e.value.linearAt

theorem ElementSet.linearAt (set : ElementSet) : LinearAt compareElementSets set :=
  linearAt_of_members fun e _ => e.linearAt

theorem Annot.linearAt (a : Annot) : LinearAt Annot.compare a :=
  linearAt_of_elements (ElementSet.linearAt a.elements)

-- ---------------------------------------------------------------------------
-- Comparison of entities
-- ---------------------------------------------------------------------------

instance : Std.TransCmp FieldRef.compare := LinearAt.transCmp FieldRef.linearAt
instance : Std.LawfulEqCmp FieldRef.compare := LinearAt.lawfulEqCmp FieldRef.linearAt
instance : Std.TransCmp MethodRef.compare := LinearAt.transCmp MethodRef.linearAt
instance : Std.LawfulEqCmp MethodRef.compare := LinearAt.lawfulEqCmp MethodRef.linearAt
instance : Std.TransCmp Value.compare := LinearAt.transCmp Value.linearAt
instance : Std.LawfulEqCmp Value.compare := LinearAt.lawfulEqCmp Value.linearAt
instance : Std.TransCmp Element.compare := LinearAt.transCmp Element.linearAt
instance : Std.LawfulEqCmp Element.compare := LinearAt.lawfulEqCmp Element.linearAt
instance : Std.TransCmp compareElementSets := LinearAt.transCmp ElementSet.linearAt
instance : Std.LawfulEqCmp compareElementSets := LinearAt.lawfulEqCmp ElementSet.linearAt
instance : Std.TransCmp Annot.compare := LinearAt.transCmp Annot.linearAt
instance : Std.LawfulEqCmp Annot.compare := LinearAt.lawfulEqCmp Annot.linearAt

theorem MethodHandle.compare_eq {a b : MethodHandle}
    (h : a.identity = b.identity → a.content = b.content) :
    a.compare b = a.content.compare b.content := by
  unfold MethodHandle.compare
  split
  · next hsame =>
    have hcontent := h (beq_iff_eq.mp hsame)
    exact ((a.content.linearAt.eq_iff b.content).mpr hcontent).symm
  · rfl

/-- All entities are linearly ordered, equal only if they are the same in every part. Types go by
their codes and sequences by their first difference, what begins another coming first; and handles
are ordered as what they hold. -/
theorem entities_linear :
    Linear Value.compare ∧ Linear Element.compare ∧ Linear Annot.compare ∧
    Linear compareElementSets ∧ Linear MethodRef.compare ∧ Linear FieldRef.compare ∧
    (∀ a b : Value, a.valueType ≠ b.valueType →
      a.compare b = compare a.valueType.code b.valueType.code) ∧
    (∀ a b : List Value, (Value.array a).compare (.array b) = .lt ↔
      List.Lex (fun x y => x.compare y = .lt) a b) ∧
    (∀ a b : List String, compareTypes a b = .lt ↔
      List.Lex (fun x y => Text.compareUnits x y = .lt) a b) ∧
    (∀ a b : ElementSet, compareElementSets a b = .lt ↔
      List.Lex (fun x y => x.compare y = .lt) a.members b.members) ∧
    (∀ a b : MethodHandle, (a.identity = b.identity → a.content = b.content) →
      a.compare b = a.content.compare b.content) := by
  refine ⟨.of_lawful _, .of_lawful _, .of_lawful _, .of_lawful _, .of_lawful _, .of_lawful _,
    ?_, ?_, ?_, ?_, fun _ _ => MethodHandle.compare_eq⟩
  · intro a b h
    exact Value.compare_of_code_ne (mt ValueType.code_inj h)
  · intro a b
    rw [Value.compare, compareItems_eq, compareLex_eq_lt_iff]
  · intro a b
    rw [compareTypes_eq, compareLex_eq_lt_iff]
  · intro a b
    rw [compareElementSets_eq, compareLex_eq_lt_iff]

/-- A byte comes before an array of no items, and two handles of one reference are equal. -/
theorem entities_linear_mixed :
    let byte : Value := .scalar (.byte 7)
    let m : MethodRef := ⟨"LA;", "f", ["I", "[J"], "V"⟩
    let one : MethodHandle := ⟨⟨0, m⟩, 1⟩
    let other : MethodHandle := ⟨⟨2, m⟩, 1⟩
    byte.valueType ≠ (Value.array []).valueType ∧ byte.compare (.array []) = .lt ∧
    (one.identity = other.identity → one.content = other.content) ∧ one.compare other = .eq ∧
    one.compare one = .eq := by
  intro byte m one other
  obtain ⟨-, -, -, -, hmethod, -, htypes, -, -, -, hhandles⟩ := entities_linear
  have hne : byte.valueType ≠ (Value.array []).valueType := by decide
  have hself : m.compare m = .eq := (hmethod.eq_iff m m).mpr rfl
  exact ⟨hne, htypes byte (.array []) hne, fun _ => rfl,
    (hhandles one other fun _ => rfl).trans hself, (hhandles one one fun _ => rfl).trans hself⟩

end DexCanon
