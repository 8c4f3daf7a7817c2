import DexCanon.Value.Basic

/-!
# Inspection of values

The text of a value for people who look at it. A value is its type with what it holds in
parentheses. References stand as they print, unescaped, and so does the name of an element; an
element is always written on one line, whatever the layout around it.
-/

set_option autoImplicit false

namespace DexCanon

open Text

mutual
def Value.inspect (layout : Layout) : Value → String
  | .scalar s => s.inspect layout
  | .field f => (Brackets.case "Field").around layout [f.inspect]
  | .method m => (Brackets.case "Method").around layout [m.inspect]
  | .enum f => (Brackets.case "Enum").around layout [f.inspect]
  | .array items =>
    (Brackets.case "Array").around layout [Brackets.list.around layout (inspectItems layout items)]
  | .annot a => (Brackets.case "Annotation").around layout [a.inspect layout]
def inspectItems (layout : Layout) : List Value → List String
  | [] => []
  | item :: rest => item.inspect layout :: inspectItems layout rest
def Annot.inspect (layout : Layout) : Annot → String
  | ⟨type, elements⟩ =>
    (Brackets.record "Annotation").around layout
      ["type: " ++ quoted type, "elements: " ++ inspectElementSet layout elements]
def inspectElementSet (layout : Layout) : ElementSet → String
  | ⟨members⟩ => Brackets.set.around layout (inspectElements members)
def inspectElements : List Element → List String
  | [] => []
  | element :: rest => element.inspect :: inspectElements rest
def Element.inspect : Element → String
  | ⟨name, value⟩ => name ++ " = " ++ value.inspect .oneLine
end

end DexCanon
