import RootPermit.Foundation.Text

/-!
# Markup and the text in it

A page is a sequence of tags, each followed by text.  The scanner finds them as a
browser's does, as far as tags, attributes and quoted values go.  Text is written with
references for the five characters that mean something to it.

* `unescape_escape` — reading text back gives the text;
* `scan_emit` — scanning what was written gives back the tags, and the text as it was
  escaped: no text adds a tag or takes one away.
-/

namespace RootPermit
namespace Foundation
namespace Markup

/-! ### References -/

/-- The characters `&`, `<`, `>`, `'` and `"` with what is written for them. -/
def references : List (UInt16 × Text) :=
  [(0x26, literal "&amp;"), (0x3c, literal "&lt;"), (0x3e, literal "&gt;"),
    (0x27, literal "&#39;"), (0x22, literal "&quot;")]

/-- The character means something in markup. -/
def Significant (unit : UInt16) : Prop :=
  unit ∈ references.map Prod.fst

instance (unit : UInt16) : Decidable (Significant unit) :=
  inferInstanceAs (Decidable (unit ∈ references.map Prod.fst))

def escapeUnit (unit : UInt16) : Text :=
  (references.lookup unit).getD [unit]

def escape (text : Text) : Text :=
  text.flatMap escapeUnit

/-- Reads text, of which the first `skipped` characters belong to a reference that has
been read. -/
def unescapeFrom : (skipped : ℕ) → Text → Text
  | _, [] => []
  | skipped + 1, _ :: rest => unescapeFrom skipped rest
  | 0, unit :: rest =>
      match references.find? fun reference => reference.2.isPrefixOf (unit :: rest) with
      | some (read, written) => read :: unescapeFrom (written.length - 1) rest
      | none => unit :: unescapeFrom 0 rest

def unescape (text : Text) : Text :=
  unescapeFrom 0 text

@[simp] theorem escape_nil : escape [] = [] := rfl

@[simp] theorem escape_append (first second : Text) :
    escape (first ++ second) = escape first ++ escape second :=
  List.flatMap_append

theorem significant_iff {unit : UInt16} : Significant unit ↔
    unit = 0x26 ∨ unit = 0x3c ∨ unit = 0x3e ∨ unit = 0x27 ∨ unit = 0x22 := by
  simp [Significant, references]

theorem escapeUnit_of_not_significant {unit : UInt16} (h : ¬ Significant unit) :
    escapeUnit unit = [unit] := by
  have hNone : references.lookup unit = none := by
    rw [List.lookup_eq_none_iff]
    intro reference hReference
    have hOther : unit ≠ reference.1 := by
      rintro rfl
      exact h (List.mem_map_of_mem hReference)
    simpa using hOther
  rw [escapeUnit, hNone, Option.getD_none]

/-- Text without significant characters is written as it is. -/
theorem escape_of_plain {text : Text} (h : ∀ unit ∈ text, ¬ Significant unit) :
    escape text = text := by
  induction text with
  | nil => rfl
  | cons unit rest ih =>
      obtain ⟨hUnit, hRest⟩ := List.forall_mem_cons.mp h
      rw [escape, List.flatMap_cons, escapeUnit_of_not_significant hUnit,
        List.singleton_append]
      exact congrArg (unit :: ·) (ih hRest)

/-- No significant character but the one that begins a reference is ever written. -/
theorem not_significant_of_mem_escape {text : Text} {unit : UInt16}
    (h : unit ∈ escape text) : Significant unit → unit = 0x26 := by
  intro hSignificant
  obtain ⟨original, -, hUnit⟩ := List.mem_flatMap.mp h
  by_cases hOriginal : Significant original
  · rw [significant_iff] at hOriginal
    have hAll : (references.all fun reference => reference.2.all fun written =>
        decide (Significant written → written = 0x26)) = true := by decide +kernel
    have hWritten : ∃ reference ∈ references, escapeUnit original = reference.2 := by
      rcases hOriginal with rfl | rfl | rfl | rfl | rfl <;> decide
    obtain ⟨reference, hReference, hEscaped⟩ := hWritten
    have hWrittenAll := List.all_eq_true.mp hAll reference hReference
    have hOnly := List.all_eq_true.mp hWrittenAll unit (hEscaped ▸ hUnit)
    exact of_decide_eq_true hOnly hSignificant
  · rw [escapeUnit_of_not_significant hOriginal, List.mem_singleton] at hUnit
    exact absurd (hUnit ▸ hSignificant) hOriginal

/-- What does not begin with `&` is not a reference. -/
theorem find?_references {unit : UInt16} {rest : Text} (h : unit ≠ 0x26) :
    (references.find? fun reference => reference.2.isPrefixOf (unit :: rest)) = none := by
  rw [List.find?_eq_none]
  intro reference hReference
  have hAll : ∀ reference ∈ references, reference.2.head? = some 0x26 := by decide
  obtain ⟨others, hWritten⟩ := List.head?_eq_some_iff.mp (hAll reference hReference)
  simp [hWritten, List.isPrefixOf, beq_eq_false_iff_ne.mpr h.symm]

/-- Text is read back as it was. -/
theorem unescape_escape (text : Text) : unescape (escape text) = text := by
  induction text with
  | nil => rfl
  | cons unit rest ih =>
      rw [escape, List.flatMap_cons]
      by_cases hUnit : Significant unit
      · -- Each reference is read in full, and reading goes on behind it.
        rcases significant_iff.mp hUnit with rfl | rfl | rfl | rfl | rfl
        · exact congrArg ((0x26 : UInt16) :: ·) ih
        · exact congrArg ((0x3c : UInt16) :: ·) ih
        · exact congrArg ((0x3e : UInt16) :: ·) ih
        · exact congrArg ((0x27 : UInt16) :: ·) ih
        · exact congrArg ((0x22 : UInt16) :: ·) ih
      · rw [escapeUnit_of_not_significant hUnit, List.singleton_append]
        have hAmp : unit ≠ 0x26 := fun hSame => hUnit (significant_iff.mpr (.inl hSame))
        rw [unescape, unescapeFrom, find?_references hAmp]
        exact congrArg (unit :: ·) ih

/-! ### Tags -/

/-- Where the scanner is inside of a tag: outside of a value, before one, or in one. -/
inductive Mode where
  | name
  | beforeValue
  | doubleQuoted
  | singleQuoted
  | unquoted
  deriving DecidableEq, Repr

def isBlank (unit : UInt16) : Bool :=
  decide (unit ∈ [0x20, 0x09, 0x0a, 0x0c, 0x0d])

/-- What comes after a character of a tag; nothing where it ends the tag. -/
def Mode.next : Mode → UInt16 → Option Mode
  | .name, unit =>
      if unit = 0x3e then none else if unit = 0x3d then some .beforeValue else some .name
  | .beforeValue, unit =>
      if unit = 0x3e then none
      else if unit = 0x22 then some .doubleQuoted
      else if unit = 0x27 then some .singleQuoted
      else if isBlank unit then some .beforeValue
      else some .unquoted
  | .doubleQuoted, unit => if unit = 0x22 then some .name else some .doubleQuoted
  | .singleQuoted, unit => if unit = 0x27 then some .name else some .singleQuoted
  | .unquoted, unit =>
      if unit = 0x3e then none else if isBlank unit then some .name else some .unquoted

/-- The modes through a part of a tag. -/
def Mode.run (mode : Mode) (raw : Text) : Option Mode :=
  raw.foldlM Mode.next mode

/-- A letter, `/`, `!` or `?`: what makes a tag of a `<` before it. -/
def opensTag (unit : UInt16) : Bool :=
  decide ((0x41 ≤ unit ∧ unit ≤ 0x5a) ∨ (0x61 ≤ unit ∧ unit ≤ 0x7a) ∨
    unit ∈ [0x2f, 0x21, 0x3f])

/-- What stands between `<` and `>`, with the text up to the next tag. -/
structure Element where
  tag : Text
  text : Text
  deriving DecidableEq, Repr

/-- The state of the scanner, with the elements that it has read.  The text before the
first tag belongs to an empty one. -/
inductive Scanner where
  | text (read : List Element) (current : Element)
  | opened (read : List Element) (current : Element)
  | tag (read : List Element) (mode : Mode) (raw : Text)
  deriving DecidableEq, Repr

def Scanner.step : Scanner → UInt16 → Scanner
  | .text read current, unit =>
      if unit = 0x3c then .opened read current
      else .text read { current with text := current.text ++ [unit] }
  | .opened read current, unit =>
      if opensTag unit then .tag (read ++ [current]) .name [unit]
      else if unit = 0x3c then
        .opened read { current with text := current.text ++ [0x3c] }
      else .text read { current with text := current.text ++ [0x3c, unit] }
  | .tag read mode raw, unit =>
      match mode.next unit with
      | some next => .tag read next (raw ++ [unit])
      | none => .text read { tag := raw, text := [] }

/-- The elements at the end of a page; a tag that was not ended is dropped. -/
def Scanner.elements : Scanner → List Element
  | .text read current => read ++ [current]
  | .opened read current => read ++ [{ current with text := current.text ++ [0x3c] }]
  | .tag read _ _ => read

def scan (page : Text) : List Element :=
  (page.foldl Scanner.step (.text [] { tag := [], text := [] })).elements

/-- A text that ends where it should when it is written as a tag. -/
def IsTag (raw : Text) : Prop :=
  ∃ first ∈ raw.head?, opensTag first = true ∧
    ∃ mode ∈ Mode.run .name raw.tail, mode.next 0x3e = none

instance (raw : Text) : Decidable (IsTag raw) :=
  inferInstanceAs (Decidable (∃ first ∈ raw.head?, _))

/-- A tag as it is written, with its text. -/
def Element.emit (element : Element) : Text :=
  0x3c :: (element.tag ++ 0x3e :: escape element.text)

def emit (elements : List Element) : Text :=
  elements.flatMap Element.emit

theorem foldl_step_text {read : List Element} {current : Element} {text : Text}
    (h : 0x3c ∉ text) :
    text.foldl Scanner.step (.text read current) =
      .text read { current with text := current.text ++ text } := by
  induction text generalizing current with
  | nil => simp
  | cons unit rest ih =>
      rw [List.mem_cons, not_or] at h
      rw [List.foldl_cons, Scanner.step, if_neg (Ne.symm h.1), ih h.2]
      simp

theorem foldl_step_tag {read : List Element} {mode last : Mode} {raw part : Text}
    (h : mode.run part = some last) :
    part.foldl Scanner.step (.tag read mode raw) = .tag read last (raw ++ part) := by
  induction part generalizing mode raw with
  | nil =>
      rw [Mode.run, List.foldlM_nil, Option.pure_def, Option.some.injEq] at h
      rw [List.foldl_nil, List.append_nil, h]
  | cons unit rest ih =>
      rw [Mode.run, List.foldlM_cons, Option.bind_eq_bind, Option.bind_eq_some_iff] at h
      obtain ⟨next, hNext, hRest⟩ := h
      rw [List.foldl_cons, Scanner.step, hNext]
      dsimp only
      rw [ih hRest, List.append_assoc, List.singleton_append]

/-- Behind any text, an element that is written is read as it was. -/
theorem foldl_step_emit {read : List Element} {current element : Element}
    (h : IsTag element.tag) :
    element.emit.foldl Scanner.step (.text read current) =
      .text (read ++ [current]) { element with text := escape element.text } := by
  obtain ⟨first, hFirst, hOpens, last, hLast, hEnd⟩ := h
  have hTag : element.tag = first :: element.tag.tail :=
    (List.cons_head?_tail hFirst).symm
  have hText : 0x3c ∉ escape element.text := by
    intro hMem
    have hAmp := not_significant_of_mem_escape hMem (by decide)
    cases hAmp
  have hRead : element.tag.foldl Scanner.step (.opened read current) =
      .tag (read ++ [current]) last element.tag := by
    rw [hTag, List.foldl_cons, Scanner.step, if_pos hOpens, foldl_step_tag hLast,
      List.singleton_append]
  calc element.emit.foldl Scanner.step (.text read current)
      = (0x3e :: escape element.text).foldl Scanner.step
          (element.tag.foldl Scanner.step (.opened read current)) := by
        rw [Element.emit, List.foldl_cons, Scanner.step, if_pos rfl, List.foldl_append]
    _ = (escape element.text).foldl Scanner.step
          (.text (read ++ [current]) { tag := element.tag, text := [] }) := by
        rw [hRead, List.foldl_cons, Scanner.step, hEnd]
    _ = .text (read ++ [current]) { element with text := escape element.text } := by
        rw [foldl_step_text hText, List.nil_append]

/-- Scanning what was written gives back its tags and, escaped, their texts. -/
theorem scan_emit {elements : List Element} (h : ∀ element ∈ elements, IsTag element.tag) :
    scan (emit elements) = { tag := [], text := [] } ::
      elements.map fun element => { element with text := escape element.text } := by
  suffices hAll : ∀ read current, ((emit elements).foldl Scanner.step
      (.text read current)).elements = read ++ current ::
        elements.map fun element => { element with text := escape element.text } from
    hAll [] _
  induction elements with
  | nil =>
      intro read current
      rfl
  | cons element rest ih =>
      intro read current
      obtain ⟨hElement, hRest⟩ := List.forall_mem_cons.mp h
      rw [emit, List.flatMap_cons, List.foldl_append, foldl_step_emit hElement]
      exact (ih hRest _ _).trans (by simp)

end Markup
end Foundation
end RootPermit
