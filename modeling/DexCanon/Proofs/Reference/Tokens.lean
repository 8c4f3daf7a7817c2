import DexCanon.Proofs.Reference.Failure
import DexCanon.Proofs.Text.Encoding
import DexCanon.Reference.Bytes

/-!
# Types found by their bytes

Walking over the bytes of a text comes to what reading its characters comes to. Every cut is between
characters, since a type ends behind a mark, and a mark is a byte of its own. No type begins another
one, so a text is made of types in one way only; where it is not, the walk stops at the first place
where no type starts.
-/

set_option autoImplicit false

namespace DexCanon.Reference.Bytes

open Descriptor Text

theorem bytesOf_eq (text : String) : bytesOf text = encode text.toList := toList_toUTF8 text

theorem classLength_encode (rest : List Char) : classLength (encode ('L' :: rest)) =
    (scanClass? rest).map fun parts => byteCount ('L' :: parts.1) := by
  have hcut : cut? [';'] ('L' :: rest) =
      (cut? [';'] rest).map fun parts => ('L' :: parts.1, parts.2) := by
    rw [cut?]
    rfl
  have hL : 'L'.utf8Size = 1 := by decide
  have hend : byteCount [';'] = 1 := by decide
  rw [classLength, findIdx?_encode (by decide), hcut, scanClass?]
  cases hrest : cut? [';'] rest with
  | none => rfl
  | some parts =>
    obtain ⟨name, after⟩ := parts
    cases name with
    | nil => rfl
    | cons c name =>
      have hlong : byteCount ('L' :: c :: name) > 1 := by
        have hc := c.utf8Size_pos
        rw [byteCount_cons, byteCount_cons, hL]
        omega
      have hsplit : 'L' :: (c :: name ++ [';']) = 'L' :: c :: name ++ [';'] := rfl
      simp only [Option.map_some]
      rw [if_pos hlong, hsplit, byteCount_append, hend]

theorem typeLength_bracket (void : Bool) (bytes : List UInt8) :
    typeLength void ('['.toUInt8 :: bytes) =
      (typeLength false bytes).map (Option.map (1 + ·)) := by
  have hcount : (('['.toUInt8 :: bytes).takeWhile (· = '['.toUInt8)).length =
      (bytes.takeWhile (· = '['.toUInt8)).length + 1 := by
    simp
  simp only [typeLength, hcount, List.getElem?_cons_succ]
  generalize (bytes.takeWhile (· = '['.toUInt8)).length = brackets
  have htail : tail ('['.toUInt8 :: bytes) (brackets + 1) = tail bytes brackets := by
    simp [tail]
  cases bytes[brackets]? with
  | none => rfl
  | some b =>
    simp only [Nat.add_one_ne_zero, and_false, Bool.false_eq_true, false_and, if_false, htail]
    split
    · simp [Except.map, Nat.add_comm]
    split
    · cases tail bytes brackets with
      | error halt => rfl
      | ok front =>
        simp only [Except.map, Option.map_map]
        congr 2
        funext length
        exact (Nat.add_right_comm ..).trans (Nat.add_comm ..)
    · rfl

theorem typeLength_of_ne_bracket (void : Bool) {c : Char} (hbracket : c ≠ '[') (rest : List Char) :
    typeLength void (encode (c :: rest)) =
      .ok ((scan? void (c :: rest)).map fun parts => byteCount parts.1) := by
  obtain ⟨b, more, hbytes, hmark⟩ := exists_first_byte c
  have hhead : (encode (c :: rest))[0]? = some b := by
    simp [encode, hbytes]
  have hnone : (encode (c :: rest)).takeWhile (· = '['.toUInt8) = [] := by
    simp [encode, hbytes, hmark '[', hbracket]
  have hprim : b ∈ primitives ↔ c ∈ Descriptor.primitives := by
    simp [primitives, Descriptor.primitives, hmark]
  have htail : tail (encode (c :: rest)) 0 = .ok (encode (c :: rest)) := by
    simp [tail]
  rw [scan?, if_neg hbracket]
  simp only [typeLength, hnone, List.length_nil, hhead, hprim, hmark 'V' (by decide),
    hmark 'L' (by decide), htail]
  by_cases hc : c ∈ Descriptor.primitives
  · have hascii : Descriptor.primitives.all (·.toNat < 128) := by decide
    have hone : c.utf8Size = 1 :=
      utf8Size_mark (of_decide_eq_true (List.all_eq_true.mp hascii c hc))
    simp [hc, byteCount, hone]
  by_cases hV : void = true ∧ c = 'V'
  · obtain ⟨rfl, rfl⟩ := hV
    have hone : 'V'.utf8Size = 1 := utf8Size_mark (by decide)
    simp [hc, byteCount, hone]
  by_cases hL : c = 'L'
  · subst hL
    simp [hc, Except.map, classLength_encode, Option.map_map, Function.comp_def]
  · simp [hc, hV, hL, and_comm]

theorem typeLength_encode (void : Bool) (text : List Char) : typeLength void (encode text) =
    .ok ((scan? void text).map fun parts => byteCount parts.1) := by
  -- One bracket is taken off at a time, as the reader of characters does.
  induction text generalizing void with
  | nil => rfl
  | cons c rest ih =>
    by_cases hbracket : c = '['
    · subst hbracket
      have hencode : encode ('[' :: rest) = '['.toUInt8 :: encode rest := rfl
      have hone : '['.utf8Size = 1 := by decide
      rw [scan?, hencode, typeLength_bracket, ih, if_pos rfl]
      simp [Except.map, Option.map_map, Function.comp_def, byteCount_cons, hone]
    · exact typeLength_of_ne_bracket void hbracket rest

theorem slice_append (front type back : String) :
    slice (front ++ type ++ back) front.utf8ByteSize (front.utf8ByteSize + type.utf8ByteSize) =
      .ok type := by
  have hstart : String.Pos.Raw.IsValid (front ++ type ++ back) ⟨front.utf8ByteSize⟩ :=
    String.Pos.Raw.isValid_iff_exists_append.mpr
      ⟨front, type ++ back, String.append_assoc, rfl⟩
  have hstop : String.Pos.Raw.IsValid (front ++ type ++ back)
      ⟨front.utf8ByteSize + type.utf8ByteSize⟩ :=
    String.Pos.Raw.isValid_iff_exists_append.mpr
      ⟨front ++ type, back, rfl, by simp [String.Pos.Raw.ext_iff]⟩
  rw [slice, dif_pos ⟨Nat.le_add_right _ _, hstart, hstop⟩]
  congr 1
  rw [← String.toByteArray_inj, String.toByteArray_extract]
  have hskip := ByteArray.extract_append_size_add (a := front.toByteArray)
    (b := type.toByteArray ++ back.toByteArray) (i := 0) (j := type.toByteArray.size)
  rw [String.toByteArray_append, String.toByteArray_append, ByteArray.append_assoc]
  exact hskip.trans (ByteArray.extract_append_eq_left rfl)

theorem tail_bytesOf (done rest : List Char) :
    tail (bytesOf (String.ofList (done ++ rest))) (byteCount done) = .ok (encode rest) := by
  have hbytes : bytesOf (String.ofList (done ++ rest)) = encode done ++ encode rest := by
    rw [bytesOf_eq, String.toList_ofList, encode_append]
  rw [hbytes, tail, ← length_encode, if_pos (by simp), List.drop_left]

theorem typesFrom_step (done : List Char) {rest : List Char} (hne : rest ≠ []) :
    let text := String.ofList (done ++ rest)
    typesFrom text (byteCount done) =
      match scan? false rest with
      | none => .error (.refused (.malformedType text (byteCount done)))
      | some (type, _) =>
        (typesFrom text (byteCount (done ++ type))).map (String.ofList type :: ·) := by
  intro text
  have hlt : byteCount done < text.utf8ByteSize := by
    rw [← byteCount_eq, byteCount_append]
    exact Nat.lt_add_of_pos_right (byteCount_pos hne)
  have hlength := typeLength_encode false rest
  rw [typesFrom, if_pos hlt, tail_bytesOf]
  dsimp only
  cases hscan : scan? false rest with
  | none =>
    rw [hscan] at hlength
    split <;> simp_all
  | some parts =>
    obtain ⟨type, after⟩ := parts
    obtain ⟨rfl, -⟩ := scan?_eq_some_iff.mp hscan
    have hslice : slice text (byteCount done) (byteCount (done ++ type)) =
        .ok (String.ofList type) := by
      have hsplit : text = String.ofList done ++ String.ofList type ++ String.ofList after := by
        simp [text, String.append_assoc]
      rw [hsplit, byteCount_append, byteCount_eq, byteCount_eq, slice_append]
    rw [hscan] at hlength
    split <;> simp_all [byteCount_append]

theorem typesFrom_eq (done rest : List Char) :
    let text := String.ofList (done ++ rest)
    typesFrom text (byteCount done) =
      match split rest with
      | .ok types => .ok (types.map String.ofList)
      | .error position => .error (.refused (.malformedType text (byteCount done + position))) := by
  intro text
  fun_induction split rest generalizing done with
  | case1 =>
    rw [typesFrom, if_neg (by simp [text, byteCount_eq])]
    rfl
  | case2 rest hne hscan =>
    rw [typesFrom_step done hne, hscan]
    rfl
  | case3 rest hne type after hscan types hsplit ih =>
    obtain ⟨rfl, -⟩ := scan?_eq_some_iff.mp hscan
    have hnext := ih (done ++ type)
    rw [List.append_assoc, hsplit] at hnext
    rw [typesFrom_step done hne, hscan]
    simp only [hnext]
    rfl
  | case4 rest hne type after hscan position hsplit ih =>
    obtain ⟨rfl, -⟩ := scan?_eq_some_iff.mp hscan
    have hnext := ih (done ++ type)
    rw [List.append_assoc, hsplit] at hnext
    simp only [byteCount_append, Nat.add_assoc] at hnext
    rw [typesFrom_step done hne, hscan]
    simp only [byteCount_append, hnext]
    rfl

theorem types_eq (text : String) : types text = (typeList text.toList).mapError .refused := by
  have h := typesFrom_eq [] text.toList
  simp only [List.nil_append, String.ofList_toList] at h
  rw [types, typeList]
  refine h.trans ?_
  cases split text.toList with
  | ok found => rfl
  | error position =>
    simp [Except.mapError, byteCount]

-- ---------------------------------------------------------------------------
-- Texts that are made of types
-- ---------------------------------------------------------------------------

theorem isType_eq_of_isPrefix {a b : List Char} (ha : IsType a) (hb : IsType b) (h : a <+: b) :
    a = b := by
  obtain ⟨rest, rfl⟩ := h
  have hboth := ha.scan?_append false rest
  rw [← List.append_nil (a ++ rest), hb.scan?_append] at hboth
  exact (Prod.mk.inj (Option.some.inj hboth)).1.symm

theorem types_eq_ok_iff {text : String} {found : List String} : types text = .ok found ↔
    String.join found = text ∧ ∀ type ∈ found, IsType type.toList := by
  have htext : text.toList = (found.map String.toList).flatten ↔ String.join found = text := by
    rw [← String.toList_inj, String.toList_join, List.flatMap_def]
    exact eq_comm
  rw [← htext, ← typeList_eq_ok_iff, types_eq]
  cases typeList text.toList <;> simp [Except.mapError]

-- ---------------------------------------------------------------------------
-- Texts that are not
-- ---------------------------------------------------------------------------

/-- The text is made of types up to this byte, which is in front of a character, and no type starts
there. -/
structure StuckAt (text : String) (position : Nat) : Prop where
  inside : position < text.utf8ByteSize
  boundary : String.Pos.Raw.IsValid text ⟨position⟩
  stuck : ∃ (found : List String) (rest : String), String.join found ++ rest = text ∧
    (String.join found).utf8ByteSize = position ∧ (∀ type ∈ found, IsType type.toList) ∧
    ∀ type, type <+: rest.toList → ¬ IsType type

theorem stuckAt_iff {text : String} {position : Nat} :
    StuckAt text position ↔ split text.toList = .error position := by
  constructor
  · rintro ⟨hinside, -, found, rest, rfl, rfl, hfound, hnone⟩
    have hne : rest.toList ≠ [] := by
      intro hnil
      rw [String.toList_eq_nil_iff.mp hnil, String.append_empty] at hinside
      exact Nat.lt_irrefl _ hinside
    have htypes : ∀ type ∈ found.map String.toList, IsType type := by simpa using hfound
    have hjoin : (String.join found).toList = (found.map String.toList).flatten := by
      rw [String.toList_join, List.flatMap_def]
    rw [String.toList_append, hjoin, split_flatten_append htypes hne hnone, ← hjoin, byteCount_eq,
      String.ofList_toList]
  · intro h
    obtain ⟨chars, rfl⟩ := text.exists_eq_ofList
    rw [String.toList_ofList] at h
    have hnot : ¬ IsTypeList chars := not_isTypeList_of_split h
    cases typesBytes_of_split h with
    | @front types htypes rest hnone =>
      have hne : rest ≠ [] := by
        rintro rfl
        exact hnot ⟨types, List.append_nil _, htypes⟩
      have hjoin : String.join (types.map String.ofList) = String.ofList types.flatten := by
        rw [← String.toList_inj, String.toList_join, List.flatMap_map]
        simp [List.flatMap_def]
      refine ⟨?_, ?_, types.map String.ofList, String.ofList rest, ?_, ?_, ?_, ?_⟩
      · rw [← byteCount_eq, ← byteCount_eq, byteCount_append]
        exact Nat.lt_add_of_pos_right (byteCount_pos hne)
      · exact String.Pos.Raw.isValid_iff_exists_append.mpr
          ⟨String.ofList types.flatten, String.ofList rest, String.ofList_append, rfl⟩
      · rw [hjoin, String.ofList_append]
      · rw [hjoin]
      · simpa using htypes
      · simpa using hnone

theorem types_eq_error_iff {text : String} {halt : Halt} : types text = .error halt ↔
    ∃ position, halt = .refused (.malformedType text position) ∧ StuckAt text position := by
  simp only [stuckAt_iff]
  rw [types_eq, typeList]
  cases split text.toList <;> simp [Except.mapError, eq_comm]

/-- Types are found by their bytes as they are by their characters, and no cut goes wrong. A text is
divided into the types that it is the concatenation of, and there is one way only, since no type
begins another; any other text is refused where the walk is stuck. -/
theorem types_unambiguous :
    (∀ text : String, types text = (typeList text.toList).mapError .refused) ∧
    (∀ (text : String) (found : List String), types text = .ok found ↔
      String.join found = text ∧ ∀ type ∈ found, IsType type.toList) ∧
    (∀ a b : List Char, IsType a → IsType b → (a <+: b ↔ a = b)) ∧
    (∀ found other : List String, (∀ type ∈ found, IsType type.toList) →
      (∀ type ∈ other, IsType type.toList) →
      (String.join found = String.join other ↔ found = other)) ∧
    (∀ found : List String,
      types (String.join found) = .ok found ↔ ∀ type ∈ found, IsType type.toList) ∧
    ∀ (text : String) (halt : Halt), types text = .error halt ↔
      ∃ position, halt = .refused (.malformedType text position) ∧ StuckAt text position := by
  refine ⟨types_eq, fun _ _ => types_eq_ok_iff, ?_, ?_, ?_, fun _ _ => types_eq_error_iff⟩
  · intro a b ha hb
    exact ⟨isType_eq_of_isPrefix ha hb, fun h => h ▸ List.prefix_refl a⟩
  · intro found other hfound hother
    refine ⟨fun h => ?_, congrArg String.join⟩
    have htypes := types_eq_ok_iff.mpr ⟨h, hfound⟩
    rw [types_eq_ok_iff.mpr ⟨rfl, hother⟩] at htypes
    exact (Except.ok.inj htypes).symm
  · intro found
    rw [types_eq_ok_iff]
    exact and_iff_right rfl

/-- The name of the class takes more bytes than it has characters. With another letter behind it the
walk is stuck after both types. -/
theorem types_unambiguous_multibyte :
    let found := ["[Lé;", "I"]
    (∀ type ∈ found, IsType type.toList) ∧ types "[Lé;I" = .ok found ∧
      (String.join found = String.join ["[Lé;", "J"] ↔ found = ["[Lé;", "J"]) ∧
      ¬ "[Lé;".toList <+: "[Léé;".toList ∧
      types "[Lé;IQ" = .error (.refused (.malformedType "[Lé;IQ" 6)) ∧ StuckAt "[Lé;IQ" 6 := by
  intro found
  obtain ⟨heq, hok, hbegins, hunique, -, herror⟩ := types_unambiguous
  have hfound : ∀ type ∈ found, IsType type.toList := by decide +kernel
  have hother : ∀ type ∈ ["[Lé;", "J"], IsType type.toList := by decide +kernel
  have hrefused : types "[Lé;IQ" = .error (.refused (.malformedType "[Lé;IQ" 6)) := by
    rw [heq]
    decide +kernel
  obtain ⟨position, hhalt, hstuck⟩ := (herror _ _).mp hrefused
  cases hhalt
  refine ⟨hfound, (hok _ _).mpr ⟨by decide, hfound⟩, hunique found _ hfound hother, ?_, hrefused,
    hstuck⟩
  rw [hbegins _ _ (by decide +kernel) (by decide +kernel)]
  decide

end DexCanon.Reference.Bytes
