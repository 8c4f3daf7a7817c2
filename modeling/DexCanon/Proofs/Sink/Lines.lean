import DexCanon.Proofs.Draft.Trace
import DexCanon.Proofs.Sink.Replay

/-!
# One line for each diagnostic

A terminal writes each diagnostic as it stands and ends it with a line break. Someone who reads the
lines back gets the diagnostics that were written, no more and no less, exactly if no message has a
line break of its own. The name of an element may have one, so a dropped element can make up lines
that look like other diagnostics.
-/

set_option autoImplicit false

namespace DexCanon

-- ---------------------------------------------------------------------------
-- Lines of a text
-- ---------------------------------------------------------------------------

namespace Text

/-- The lines of a text, without the breaks that end them. What stands behind the last break is no
line. -/
def lines (text : String) : List String :=
  (text.toList.splitOn '\n').dropLast.map String.ofList

def unlines (parts : List String) : String := String.join (parts.map (· ++ "\n"))

def Unbroken (text : String) : Prop := '\n' ∉ text.toList

def breaks (text : String) : Nat := text.toList.count '\n'

theorem unbroken_iff {text : String} : Unbroken text ↔ breaks text = 0 :=
  List.count_eq_zero.symm

@[simp] theorem breaks_append (first second : String) :
    breaks (first ++ second) = breaks first + breaks second := by
  simp [breaks, String.toList_append]

theorem length_splitOn (mark : Char) (text : List Char) :
    (text.splitOn mark).length = text.count mark + 1 := by
  induction text with
  | nil => simp
  | cons c rest ih =>
    rw [List.splitOn_cons_eq_if_modifyHead, List.count_cons]
    by_cases h : c == mark <;> simp [h, ih]

theorem toList_unlines (parts : List String) :
    (unlines parts).toList = parts.flatMap fun part => part.toList ++ ['\n'] := by
  simp [unlines, String.toList_join, List.flatMap_map]

theorem lines_unlines (parts : List String) : lines (unlines parts) =
    (parts.flatMap fun part => part.toList.splitOn '\n').map String.ofList := by
  have hsplit : (parts.flatMap fun part => part.toList ++ ['\n']).splitOn '\n' =
      (parts.flatMap fun part => part.toList.splitOn '\n') ++ [[]] := by
    induction parts with
    | nil => rfl
    | cons part rest ih =>
      rw [List.flatMap_cons, List.append_assoc, List.singleton_append,
        List.splitOn_append_cons_self, ih, List.flatMap_cons, List.append_assoc]
  rw [lines, toList_unlines, hsplit, List.dropLast_concat]

theorem length_lines_unlines (parts : List String) :
    (lines (unlines parts)).length = parts.length + (parts.map breaks).sum := by
  rw [lines_unlines, List.length_map]
  induction parts with
  | nil => rfl
  | cons part rest ih =>
    rw [List.flatMap_cons, List.length_append, length_splitOn, ih, List.length_cons, List.map_cons,
      List.sum_cons, breaks]
    omega

theorem flatMap_splitOn (mark : Char) (text : List Char) :
    (text.splitOn mark).flatMap (· ++ [mark]) = text ++ [mark] := by
  induction text with
  | nil => rfl
  | cons c rest ih =>
    rw [List.splitOn_cons_eq_if_modifyHead]
    by_cases h : c = mark
    · simp [h, ih]
    · obtain ⟨first, more, hrest⟩ := List.exists_cons_of_ne_nil (List.splitOn_ne_nil mark rest)
      rw [hrest] at ih
      simp only [List.flatMap_cons] at ih
      simp [h, hrest, ← ih]

theorem unlines_lines_unlines (parts : List String) :
    unlines (lines (unlines parts)) = unlines parts := by
  apply String.toList_injective
  rw [toList_unlines, toList_unlines, lines_unlines]
  simp only [List.flatMap_map, List.flatMap_assoc, String.toList_ofList, flatMap_splitOn]

theorem lines_unlines_of_unbroken {parts : List String} (h : ∀ part ∈ parts, Unbroken part) :
    lines (unlines parts) = parts := by
  rw [lines_unlines]
  induction parts with
  | nil => rfl
  | cons part rest ih =>
    obtain ⟨hpart, hrest⟩ := List.forall_mem_cons.mp h
    rw [List.flatMap_cons, List.splitOn_eq_singleton hpart, List.map_append, ih hrest]
    simp

theorem unbroken_of_length {parts : List String}
    (h : (lines (unlines parts)).length = parts.length) : ∀ part ∈ parts, Unbroken part := by
  rw [length_lines_unlines] at h
  have hnone : (parts.map breaks).sum = 0 := by omega
  intro part hp
  rw [unbroken_iff]
  exact List.sum_eq_zero_iff_forall_eq_nat.mp hnone _ (List.mem_map_of_mem hp)

end Text

-- ---------------------------------------------------------------------------
-- What a terminal writes
-- ---------------------------------------------------------------------------

namespace Terminal

open Text (Unbroken breaks lines unlines)

/-- The diagnostics among the given ones whose writes are not refused. -/
def accepted (refused : List Nat) (diagnostics : List Diagnostic) : List Diagnostic :=
  (diagnostics.zipIdx.filter fun entry => entry.2 ∉ refused).map Prod.fst

theorem accepted_nil (diagnostics : List Diagnostic) : accepted [] diagnostics = diagnostics := by
  simp [accepted]

theorem written_emitAll (diagnostics : List Diagnostic) (terminal : Terminal) :
    (Sink.emitAll diagnostics terminal).device.written = terminal.device.written ++
      ((diagnostics.zipIdx terminal.device.calls).filter
        fun entry => entry.2 ∉ terminal.device.refused).map
          fun entry => line terminal.colors entry.1 ++ "\n" := by
  induction diagnostics generalizing terminal with
  | nil => simp
  | cons d rest ih =>
    show (Sink.emitAll rest (Sink.emit d terminal)).device.written = _
    rw [ih]
    by_cases h : terminal.device.calls ∈ terminal.device.refused <;>
      simp [Sink.emit, Device.write, h]

theorem text_emitAll (mode : ColorMode) (isTerminal : Bool) (refused : List Nat)
    (diagnostics : List Diagnostic) :
    (Sink.emitAll diagnostics (start mode isTerminal refused)).device.text =
      unlines ((accepted refused diagnostics).map (line (mode.enabled isTerminal))) := by
  rw [Device.text, written_emitAll, unlines, accepted, List.map_map, List.map_map]
  rfl

theorem breaks_line (colors : Bool) (d : Diagnostic) :
    breaks (line colors d) = breaks d.message := by
  cases colors with
  | false => rfl
  | true =>
    have hcode : breaks (colorCode d.severity) = 0 := by
      cases d.severity <;> decide +kernel
    have hreset : breaks resetCode = 0 := by decide +kernel
    simp [line, hcode, hreset]

/-- The message on a line: without the color codes, if there are any. -/
def messageOn (colors : Bool) (line : String) : String :=
  if colors then
    let uncolored := line.toList.drop (colorCode .warning).toList.length
    String.ofList (uncolored.take (uncolored.length - resetCode.toList.length))
  else line

theorem length_colorCode (severity : Severity) :
    (colorCode severity).toList.length = (colorCode .warning).toList.length := by
  cases severity <;> decide +kernel

theorem messageOn_line (colors : Bool) (d : Diagnostic) :
    messageOn colors (line colors d) = d.message := by
  cases colors with
  | false => rfl
  | true =>
    rw [messageOn, line, if_pos rfl, if_pos rfl, ← length_colorCode d.severity,
      String.toList_append, String.toList_append, List.append_assoc]
    simp

def read (colors : Bool) (text : String) : List String := (lines text).map (messageOn colors)

theorem read_lines_iff (colors : Bool) (diagnostics : List Diagnostic) :
    let text := unlines (diagnostics.map (line colors))
    (lines text).length = diagnostics.length + (diagnostics.map (breaks ·.message)).sum ∧
      (lines text = diagnostics.map (line colors) ↔ ∀ d ∈ diagnostics, Unbroken d.message) ∧
      (read colors text = diagnostics.map Diagnostic.message ↔
        ∀ d ∈ diagnostics, Unbroken d.message) := by
  intro text
  have hbreaks : (diagnostics.map (line colors)).map breaks =
      diagnostics.map (breaks ·.message) := by
    rw [List.map_map]
    exact List.map_congr_left fun d _ => breaks_line colors d
  have hunbroken : (∀ part ∈ diagnostics.map (line colors), Unbroken part) ↔
      ∀ d ∈ diagnostics, Unbroken d.message := by
    simp only [List.forall_mem_map, Text.unbroken_iff, breaks_line]
  have hlines : (∀ d ∈ diagnostics, Unbroken d.message) →
      lines text = diagnostics.map (line colors) := fun h =>
    Text.lines_unlines_of_unbroken (hunbroken.mpr h)
  have hlength : (lines text).length = diagnostics.length →
      ∀ d ∈ diagnostics, Unbroken d.message := by
    intro h
    rw [← hunbroken]
    exact Text.unbroken_of_length (by simpa [text] using h)
  refine ⟨?_, ?_, ?_⟩
  · rw [Text.length_lines_unlines, hbreaks, List.length_map]
  · refine ⟨fun h => hlength ?_, hlines⟩
    rw [h, List.length_map]
  · constructor
    · intro h
      apply hlength
      simpa [read] using congrArg List.length h
    · intro h
      rw [read, hlines h, List.map_map]
      exact List.map_congr_left fun d _ => messageOn_line colors d

end Terminal

-- ---------------------------------------------------------------------------
-- Sets of elements
-- ---------------------------------------------------------------------------

theorem complaints_mem_duplicates (policy : SetPolicy) (dropped : List Element) :
    ∀ d ∈ OrderedSet.complaints Element.byName policy dropped,
      d ∈ Set.range (Diagnostic.duplicate "annotation value") := by
  intro d hd
  unfold OrderedSet.complaints at hd
  split at hd
  · obtain ⟨element, -, rfl⟩ := List.mem_map.mp hd
    exact ⟨element.name, rfl⟩
  · cases hd

theorem trace_mem_duplicates (draft : Draft) :
    ∀ d ∈ trace draft, d ∈ Set.range (Diagnostic.duplicate "annotation value") := by
  induction draft using Draft.induction with
  | scalar s => simp
  | field f => simp
  | method m => simp
  | enum f => simp
  | array items ih =>
    rw [trace_array, List.forall_mem_flatMap]
    exact ih
  | annot type elements ih =>
    rw [trace_annot, List.forall_mem_append, List.forall_mem_flatMap]
    refine ⟨?_, complaints_mem_duplicates _ _⟩
    intro element he
    rw [trace_element]
    exact ih element he
  | canonical value => simp

theorem exists_names_of_build (elements : Option (List DraftElement)) :
    ∃ (set : ElementSet) (names : List String),
      Reports (ElementSet.build elements) set (names.map (.duplicate "annotation value")) := by
  have hbuild := OrderedSet.build_reports Element.byName {} elements
  let swept := OrderedSet.settle Element.byName .first ((elements.getD []).map canonicalForm)
  let reported := (elements.getD []).flatMap trace ++
    OrderedSet.complaints Element.byName {} swept.dropped
  have hall : ∀ d ∈ reported, d ∈ Set.range (Diagnostic.duplicate "annotation value") := by
    rw [List.forall_mem_append, List.forall_mem_flatMap]
    refine ⟨?_, complaints_mem_duplicates _ _⟩
    intro element _
    rw [trace_element]
    exact trace_mem_duplicates element.value
  have hrange : reported ∈ Set.range (List.map (Diagnostic.duplicate "annotation value")) := by
    rw [Set.range_list_map]
    exact hall
  obtain ⟨names, hnames⟩ := hrange
  exact ⟨⟨swept.kept⟩, names, hnames ▸ hbuild⟩

theorem unbroken_duplicate (name : String) :
    Text.Unbroken (Diagnostic.duplicate "annotation value" name).message ↔ Text.Unbroken name := by
  have hfixed : Text.breaks
      ("Ignoring duplicate " ++ "annotation value" ++ " for name: ") = 0 := by decide +kernel
  have hbreaks : Text.breaks (Diagnostic.duplicate "annotation value" name).message =
      Text.breaks name := by
    rw [Diagnostic.duplicate, Diagnostic.warning, Text.breaks_append, hfixed, Nat.zero_add]
  rw [Text.unbroken_iff, Text.unbroken_iff, hbreaks]

/-- The lines on a terminal are the diagnostics that its device accepted, one by one, and their
messages can be read back, exactly if none of the messages has a line break. For a set of elements
this is a matter of the names that are given up. -/
theorem terminal_lines_iff (mode : ColorMode) (isTerminal : Bool) :
    let colors := mode.enabled isTerminal
    (∀ (refused : List Nat) (diagnostics : List Diagnostic),
      let text := (Sink.emitAll diagnostics (Terminal.start mode isTerminal refused)).device.text
      let written := Terminal.accepted refused diagnostics
      Text.unlines (Text.lines text) = text ∧
      (Text.lines text).length = written.length + (written.map (Text.breaks ·.message)).sum ∧
      (Text.lines text = written.map (Terminal.line colors) ↔
        ∀ d ∈ written, Text.Unbroken d.message) ∧
      (Terminal.read colors text = written.map Diagnostic.message ↔
        ∀ d ∈ written, Text.Unbroken d.message) ∧
      Terminal.accepted [] diagnostics = diagnostics) ∧
    ∀ elements : Option (List DraftElement), ∃ names : List String,
      let reported := names.map (Diagnostic.duplicate "annotation value")
      let terminal := ((ElementSet.build elements).run (Terminal.start mode isTerminal [])).2
      (capture (ElementSet.build elements)).2.diagnostics = reported ∧
      (Text.lines terminal.device.text = reported.map (Terminal.line colors) ↔
        ∀ name ∈ names, Text.Unbroken name) ∧
      (Terminal.read colors terminal.device.text = reported.map Diagnostic.message ↔
        ∀ name ∈ names, Text.Unbroken name) := by
  intro colors
  refine ⟨?_, ?_⟩
  · intro refused diagnostics text written
    have htext : text = Text.unlines (written.map (Terminal.line colors)) :=
      Terminal.text_emitAll mode isTerminal refused diagnostics
    obtain ⟨hcount, hlines, hread⟩ := Terminal.read_lines_iff colors written
    rw [htext]
    exact ⟨Text.unlines_lines_unlines _, hcount, hlines, hread, Terminal.accepted_nil diagnostics⟩
  · intro elements
    obtain ⟨set, names, hbuild⟩ := exists_names_of_build elements
    refine ⟨names, ?_⟩
    intro reported terminal
    have htext : terminal.device.text = Text.unlines (reported.map (Terminal.line colors)) := by
      simp only [terminal, hbuild Terminal, Terminal.text_emitAll, Terminal.accepted_nil]
      rfl
    have hnames : (∀ d ∈ reported, Text.Unbroken d.message) ↔
        ∀ name ∈ names, Text.Unbroken name := by
      simp only [reported, List.forall_mem_map, unbroken_duplicate]
    obtain ⟨-, hlines, hread⟩ := Terminal.read_lines_iff colors reported
    rw [htext, ← hnames]
    refine ⟨?_, hlines, hread⟩
    rw [hbuild.capture_eq]

/-- One dropped element whose name has a line break writes what two dropped elements would write:
there are two lines for one diagnostic, and nobody who reads them can tell. -/
theorem terminal_lines_forged :
    let forged : DraftElement :=
      .foreign "x\nIgnoring duplicate annotation value for name: y" (.scalar .null)
    let first : DraftElement := .foreign "x" (.scalar .null)
    let second : DraftElement := .foreign "y" (.scalar .null)
    let one := some [forged, forged]
    let two := some [first, first, second, second]
    let terminal := Terminal.start .never false []
    let text := ((ElementSet.build one).run terminal).2.device.text
    (capture (ElementSet.build one)).2.size = 1 ∧ (capture (ElementSet.build two)).2.size = 2 ∧
      text = ((ElementSet.build two).run terminal).2.device.text ∧
      (Text.lines text).length = 2 := by
  intro forged first second one two terminal text
  let messages := ["Ignoring duplicate annotation value for name: x",
    "Ignoring duplicate annotation value for name: y"]
  have hreports (elements : List DraftElement) :
      let swept := OrderedSet.settle Element.byName .first (elements.map canonicalForm)
      Reports (ElementSet.build (some elements)) ⟨swept.kept⟩
        (elements.flatMap trace ++ OrderedSet.complaints Element.byName {} swept.dropped) :=
    OrderedSet.build_reports Element.byName {} (some elements)
  have hone : Reports (ElementSet.build one) ⟨[canonicalForm forged]⟩
      [.duplicate "annotation value" "x\nIgnoring duplicate annotation value for name: y"] := by
    simpa [one, forged, OrderedSet.settle, OrderedSet.complaints] using
      hreports [forged, forged]
  have htwo : Reports (ElementSet.build two) ⟨[canonicalForm first, canonicalForm second]⟩
      [.duplicate "annotation value" "x", .duplicate "annotation value" "y"] := by
    have hxy : Text.compareUnits "x" "y" = .lt := rfl
    have hyx := Std.OrientedCmp.gt_of_lt hxy
    simpa [two, first, second, OrderedSet.settle, OrderedSet.complaints, hxy, hyx] using
      hreports [first, first, second, second]
  have htext : text = Text.unlines messages := by
    simp only [text, hone Terminal terminal]
    rfl
  have hmessages : ∀ message ∈ messages, Text.Unbroken message := by
    simp [messages, Text.Unbroken]
  refine ⟨by rw [hone.capture_eq]; rfl, by rw [htwo.capture_eq]; rfl, ?_, ?_⟩
  · rw [htext, htwo Terminal terminal]
    rfl
  · rw [htext, Text.lines_unlines_of_unbroken hmessages]
    rfl

end DexCanon
