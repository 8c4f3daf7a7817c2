import DexCanon.Proofs.Text.CodePoints
import DexCanon.Proofs.Text.Cut

/-!
# Marks among bytes

In UTF-8 a mark of ASCII is one byte, and this byte is part of no other character. So a mark can be
looked for among the bytes of a text: the first byte that is a mark stands where the text is cut at
it.
-/

set_option autoImplicit false

namespace DexCanon.Text

variable {mark c : Char}

/-- No byte of a longer character is a mark. -/
theorem mem_utf8EncodeChar_iff (hmark : mark.toNat < 128) :
    mark.toUInt8 ∈ String.utf8EncodeChar c ↔ c = mark := by
  have hval : ∀ c : Char, c.val.toNat = c.toNat := fun _ => rfl
  have hbyte : mark.toUInt8.toNat = mark.toNat := by
    rw [Char.toUInt8, UInt32.toNat_toUInt8, hval, Nat.mod_eq_of_lt (by omega)]
  have hvalid := toNat_not_surrogate c
  rw [← Char.toNat_inj, String.utf8EncodeChar]
  simp only [hval]
  split_ifs <;> simp only [List.mem_cons, List.not_mem_nil, or_false, ← UInt8.toNat_inj, hbyte,
    UInt8.toNat_ofNat']
  all_goals omega

theorem utf8Size_mark (hmark : mark.toNat < 128) : mark.utf8Size = 1 := by
  rw [Char.utf8Size_eq_one_iff, UInt32.le_iff_toNat_le]
  exact Nat.le_of_lt_succ hmark

theorem utf8EncodeChar_mark (hmark : mark.toNat < 128) :
    String.utf8EncodeChar mark = [mark.toUInt8] :=
  String.utf8EncodeChar_eq_singleton (utf8Size_mark hmark)

theorem exists_first_byte (c : Char) : ∃ b more, String.utf8EncodeChar c = b :: more ∧
    ∀ mark : Char, mark.toNat < 128 → (b = mark.toUInt8 ↔ c = mark) := by
  obtain ⟨b, more, hbytes⟩ := List.exists_cons_of_ne_nil (String.utf8EncodeChar_ne_nil (c := c))
  refine ⟨b, more, hbytes, fun mark hmark => ⟨?_, ?_⟩⟩
  · rintro rfl
    exact (mem_utf8EncodeChar_iff hmark).mp (hbytes ▸ List.mem_cons_self)
  · rintro rfl
    rw [utf8EncodeChar_mark hmark] at hbytes
    exact (List.cons.inj hbytes).1.symm

def encode (text : List Char) : List UInt8 := text.flatMap String.utf8EncodeChar

theorem encode_append (front back : List Char) :
    encode (front ++ back) = encode front ++ encode back :=
  List.flatMap_append

theorem byteCount_cons (c : Char) (rest : List Char) :
    byteCount (c :: rest) = c.utf8Size + byteCount rest := rfl

theorem byteCount_pos {text : List Char} (h : text ≠ []) : 0 < byteCount text := by
  cases text with
  | nil => exact absurd rfl h
  | cons c rest => exact Nat.add_pos_left c.utf8Size_pos _

theorem length_encode (text : List Char) : (encode text).length = byteCount text := by
  induction text with
  | nil => rfl
  | cons c rest ih =>
    rw [encode, List.flatMap_cons, List.length_append, String.length_utf8EncodeChar]
    exact congrArg (c.utf8Size + ·) ih

theorem findIdx?_encode (hmark : mark.toNat < 128) (text : List Char) :
    (encode text).findIdx? (· = mark.toUInt8) =
      (cut? [mark] text).map fun parts => byteCount parts.1 := by
  induction text with
  | nil => rfl
  | cons c rest ih =>
    have hsplit : encode (c :: rest) = String.utf8EncodeChar c ++ encode rest := rfl
    rw [hsplit, List.findIdx?_append, ih, cut?]
    by_cases hc : c = mark
    · subst hc
      rw [utf8EncodeChar_mark hmark]
      simp [byteCount]
    · have hnone : (String.utf8EncodeChar c).findIdx? (· = mark.toUInt8) = none := by
        rw [List.findIdx?_eq_none_iff]
        intro b hb
        rw [decide_eq_false_iff_not]
        rintro rfl
        exact hc ((mem_utf8EncodeChar_iff hmark).mp hb)
      have hfront : [mark].isPrefixOf (c :: rest) = false := by
        simp [List.isPrefixOf, Ne.symm hc]
      rw [hnone, hfront]
      simp [Option.map_map, Function.comp_def, byteCount, Nat.add_comm]

end DexCanon.Text
