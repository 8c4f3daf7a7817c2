import DexCanon.Draft.Canonicalize

/-!
# Forms and traces, part by part

What canonicalization comes to for each kind of entity: its canonical form and its trace, from the
forms and traces of its parts.
-/

set_option autoImplicit false

namespace DexCanon

section

variable {δ α : Type} [Canonicalize δ α]

theorem canonicalizeAll_reports (entities : List δ) :
    Reports (canonicalizeAll entities) (entities.map canonicalForm) (entities.flatMap trace) := by
  induction entities with
  | nil => exact .pure _
  | cons entity rest ih =>
    exact (canonicalize_reports entity).bind (ih.map fun rest => canonicalForm entity :: rest)

theorem OrderedSet.build_reports (order : SetOrder α) (policy : SetPolicy)
    (entities : Option (List δ)) :
    let swept := settle order policy.survivor ((entities.getD []).map canonicalForm)
    Reports (build order policy entities) ⟨swept.kept⟩
      ((entities.getD []).flatMap trace ++ complaints order policy swept.dropped) :=
  (canonicalizeAll_reports _).bind (collect_reports order policy _)

variable {copy : α → δ} {forms : List α}

/-- Copies that come back as what they are copies of. -/
theorem map_canonicalForm_copies
    (h : ∀ form ∈ forms, Reports (Canonicalize.canonicalize (copy form)) form []) :
    (forms.map copy).map canonicalForm = forms := by
  calc
    (forms.map copy).map canonicalForm = forms.map fun form => canonicalForm (copy form) :=
      List.map_map
    _ = forms.map id := List.map_congr_left fun form hf => canonicalForm_eq (h form hf)
    _ = forms := List.map_id forms

theorem flatMap_trace_copies
    (h : ∀ form ∈ forms, Reports (Canonicalize.canonicalize (copy form)) form []) :
    (forms.map copy).flatMap trace = [] := by
  rw [List.flatMap_map, List.flatMap_eq_nil_iff]
  exact fun form hf => trace_eq (h form hf)

end

theorem canonicalizeItems_reports (items : List Draft) :
    Reports (canonicalizeItems items) (items.map canonicalForm) (items.flatMap trace) := by
  induction items with
  | nil => exact .pure _
  | cons item rest ih =>
    exact (canonicalize_reports item).bind (ih.map fun rest => canonicalForm item :: rest)

theorem canonicalizeElements_reports (elements : List DraftElement) :
    Reports (canonicalizeElements elements) (elements.map canonicalForm)
      (elements.flatMap trace) := by
  induction elements with
  | nil => exact .pure _
  | cons element rest ih =>
    exact (canonicalize_reports element).bind (ih.map fun rest => canonicalForm element :: rest)

theorem Draft.array_reports (items : List Draft) : Reports (array items).canonicalize
    (.array (items.map canonicalForm)) (items.flatMap trace) :=
  (canonicalizeItems_reports items).map Value.array

theorem Draft.annot_reports (type : String) (elements : List DraftElement) :
    let swept := OrderedSet.settle Element.byName .first (elements.map canonicalForm)
    Reports (annot type elements).canonicalize (.annot ⟨type, ⟨swept.kept⟩⟩)
      (elements.flatMap trace ++ OrderedSet.complaints Element.byName {} swept.dropped) :=
  (canonicalizeElements_reports elements).bind
    ((OrderedSet.collect_reports Element.byName {} _).map fun set => Value.annot ⟨type, set⟩)

theorem DraftElement.foreign_reports (name : String) (value : Draft) :
    Reports (foreign name value).canonicalize ⟨name, canonicalForm value⟩ (trace value) :=
  (canonicalize_reports value).map (Element.mk name)

-- ---------------------------------------------------------------------------
-- Equations
-- ---------------------------------------------------------------------------

variable {α : Type}

@[simp] theorem canonicalForm_supplied (entity : Supplied α) :
    canonicalForm entity = entity.content := rfl

@[simp] theorem trace_supplied (entity : Supplied α) : trace entity = [] := rfl

@[simp] theorem canonicalForm_scalar (s : Scalar) :
    canonicalForm (Draft.scalar s) = .scalar s := rfl

@[simp] theorem trace_scalar (s : Scalar) : trace (Draft.scalar s) = [] := rfl

@[simp] theorem canonicalForm_field (f : Supplied FieldRef) :
    canonicalForm (Draft.field f) = .field f.content := rfl

@[simp] theorem trace_field (f : Supplied FieldRef) : trace (Draft.field f) = [] := rfl

@[simp] theorem canonicalForm_method (m : Supplied MethodRef) :
    canonicalForm (Draft.method m) = .method m.content := rfl

@[simp] theorem trace_method (m : Supplied MethodRef) : trace (Draft.method m) = [] := rfl

@[simp] theorem canonicalForm_enum (f : Supplied FieldRef) :
    canonicalForm (Draft.enum f) = .enum f.content := rfl

@[simp] theorem trace_enum (f : Supplied FieldRef) : trace (Draft.enum f) = [] := rfl

@[simp] theorem canonicalForm_canonical (value : Value) :
    canonicalForm (Draft.canonical value) = value := rfl

@[simp] theorem trace_canonical (value : Value) : trace (Draft.canonical value) = [] := rfl

@[simp] theorem canonicalForm_array (items : List Draft) :
    canonicalForm (Draft.array items) = .array (items.map canonicalForm) :=
  canonicalForm_eq (Draft.array_reports items)

@[simp] theorem trace_array (items : List Draft) :
    trace (Draft.array items) = items.flatMap trace :=
  trace_eq (Draft.array_reports items)

theorem canonicalForm_annot (type : String) (elements : List DraftElement) :
    let swept := OrderedSet.settle Element.byName .first (elements.map canonicalForm)
    canonicalForm (Draft.annot type elements) = .annot ⟨type, ⟨swept.kept⟩⟩ :=
  canonicalForm_eq (Draft.annot_reports type elements)

theorem trace_annot (type : String) (elements : List DraftElement) :
    trace (Draft.annot type elements) = elements.flatMap trace ++
      OrderedSet.complaints Element.byName {}
        (OrderedSet.settle Element.byName .first (elements.map canonicalForm)).dropped :=
  trace_eq (Draft.annot_reports type elements)

@[simp] theorem canonicalForm_foreign (name : String) (value : Draft) :
    canonicalForm (DraftElement.foreign name value) = ⟨name, canonicalForm value⟩ :=
  canonicalForm_eq (DraftElement.foreign_reports name value)

@[simp] theorem trace_foreign (name : String) (value : Draft) :
    trace (DraftElement.foreign name value) = trace value :=
  trace_eq (DraftElement.foreign_reports name value)

@[simp] theorem canonicalForm_canonicalElement (element : Element) :
    canonicalForm (DraftElement.canonical element) = element := rfl

@[simp] theorem trace_canonicalElement (element : Element) :
    trace (DraftElement.canonical element) = [] := rfl

@[simp] theorem name_canonicalForm (element : DraftElement) :
    (canonicalForm element).name = element.name := by
  cases element <;> simp [DraftElement.name]

end DexCanon
