/-!
# Cutting a text at a separator

The first occurrence of a separator divides a text in two. The separator itself belongs to neither
part.
-/

set_option autoImplicit false

namespace DexCanon.Text

/-- What stands before and after the first occurrence of `separator`, if there is one. -/
def cut? (separator : List Char) : List Char → Option (List Char × List Char)
  | [] => if separator = [] then some ([], []) else none
  | c :: rest =>
    if separator.isPrefixOf (c :: rest) then some ([], (c :: rest).drop separator.length)
    else (cut? separator rest).map fun parts => (c :: parts.1, parts.2)

theorem length_of_cut? {separator text before after : List Char}
    (h : cut? separator text = some (before, after)) :
    before.length + separator.length + after.length = text.length := by
  induction text generalizing before with
  | nil =>
    simp only [cut?] at h
    split at h <;> simp_all
  | cons c rest ih =>
    simp only [cut?] at h
    split at h
    · next hs =>
      have hle := (List.isPrefixOf_iff_prefix.mp hs).length_le
      simp only [Option.some.injEq, Prod.mk.injEq] at h
      obtain ⟨rfl, rfl⟩ := h
      simp only [List.length_nil, List.length_drop]
      omega
    · obtain ⟨⟨b, a⟩, hb, he⟩ := Option.map_eq_some_iff.mp h
      simp only [Prod.mk.injEq] at he
      obtain ⟨rfl, rfl⟩ := he
      have := ih hb
      simp only [List.length_cons]
      omega

def byteCount (text : List Char) : Nat := text.foldr (fun c rest => c.utf8Size + rest) 0

end DexCanon.Text
