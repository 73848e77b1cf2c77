/-
  The rows that `parse_copy_rows` reads, and the input it has no answer for.
-/
import AntDb.CopyParsing

namespace AntDb.Copy

open Gathering

/-- The lines that are rows. -/
def dataLines (options : CopyOptions) (text : List Char) : List (List Char) :=
  let rows := (lines text).filter (· ≠ [])
  if options.header then rows.drop 1 else rows

/-- A field of a bytes column after whose `\x` a slice ends inside a character. -/
def EndsInside (field : String) (column : CopyColumnSpec) (nullString : String) : Prop :=
  field ≠ nullString ∧ column.dataType = .bytes ∧
    ∃ hex, field.toList = '\\' :: 'x' :: hex ∧ utf8Length hex % 2 = 0 ∧ Astray hex

/-- The value of a field. -/
def fieldValue (std : StdParsing) (nullString : String) (x : String × CopyColumnSpec) :
    Except Fault DataBaseDataEntry :=
  parseCopyValue std x.1 x.2.dataType nullString

/-- The line has a field for each column, and the fields before one that ends inside a character
    have values. -/
def LineEndsInside (std : StdParsing) (columns : List CopyColumnSpec) (options : CopyOptions)
    (line : List Char) : Prop :=
  (splitCopyFields line options.delimiter).length = columns.length ∧
    ∃ x, Reached (fieldValue std options.nullString)
      ((splitCopyFields line options.delimiter).zip columns) x ∧ EndsInside x.1 x.2 options.nullString

variable {std : StdParsing} {columns : List CopyColumnSpec} {options : CopyOptions}
  {line : List Char} {buffer : List UInt8} {fault : Fault}

theorem fieldValue_sliced {x : String × CopyColumnSpec} {nullString : String}
    (hfault : ∀ e, fault ≠ .err e) :
    fieldValue std nullString x = .error fault ↔ fault = sliced ∧ EndsInside x.1 x.2 nullString :=
  parseCopyValue_sliced hfault

theorem parseCopyRow_sliced (hfault : ∀ e, fault ≠ .err e) :
    parseCopyRow std columns options line = .error fault ↔
      fault = sliced ∧ LineEndsInside std columns options line := by
  unfold parseCopyRow LineEndsInside
  dsimp only
  split_ifs with hlength
  · refine iff_of_false (fun h => ?_) fun h => hlength h.2.1
    exact hfault _ (Except.error.inj h).symm
  · rw [and_iff_right (not_not.1 hlength)]
    refine (collect_error_iff (f := fieldValue std options.nullString)
      (g := fun (row : RowData) x v => row.insert x.2.columnId v)).trans ?_
    rw [failsFirst_iff]
    simp only [fieldValue_sliced hfault]
    constructor
    · rintro ⟨x, hreached, hsliced, hends⟩
      exact ⟨hsliced, x, hreached, hends⟩
    · rintro ⟨hsliced, x, hreached, hends⟩
      exact ⟨x, hreached, hsliced, hends⟩

/-- **COPY input panics the server** exactly if the first line that has no row has a field that
    ends inside a character. -/
theorem parseCopyRows_answers_iff : Answers (parseCopyRows std buffer columns options) ↔
    ¬ (options.binary = false ∧ ∃ text, ByteArray.utf8Decode? ⟨buffer.toArray⟩ = some text ∧
      ∃ line, Reached (parseCopyRow std columns options) (dataLines options text.toList) line ∧
        LineEndsInside std columns options line) := by
  unfold parseCopyRows
  cases options.binary with
  | true => exact iff_of_true (Or.inr ⟨_, rfl⟩) (by rintro ⟨⟨⟩, -⟩)
  | false =>
    rw [if_neg Bool.false_ne_true, and_iff_right rfl]
    cases ByteArray.utf8Decode? ⟨buffer.toArray⟩ with
    | none => exact iff_of_true (Or.inr ⟨_, rfl⟩) (by rintro ⟨text, ⟨⟩, -⟩)
    | some text =>
      have hsome : (∃ text', some text = some text' ∧ ∃ line,
          Reached (parseCopyRow std columns options) (dataLines options text'.toList) line ∧
            LineEndsInside std columns options line) ↔ ∃ line,
          Reached (parseCopyRow std columns options) (dataLines options text.toList) line ∧
            LineEndsInside std columns options line := by
        simp
      rw [hsome]
      change Answers ((dataLines options text.toList).mapM (parseCopyRow std columns options)) ↔ _
      rw [answers_iff]
      constructor
      · rintro h ⟨line, hreached, hends⟩
        refine h sliced (by rintro e ⟨⟩) (mapM_error_iff.2 (failsFirst_iff.2 ⟨line, hreached, ?_⟩))
        exact (parseCopyRow_sliced (by rintro e ⟨⟩)).2 ⟨rfl, hends⟩
      · intro h fault hfault heq
        obtain ⟨line, hreached, hline⟩ := failsFirst_iff.1 (mapM_error_iff.1 heq)
        exact h ⟨line, hreached, ((parseCopyRow_sliced hfault).1 hline).2⟩

/-- After `\\x` the first pair of `aéb` ends inside the second character. -/
theorem parseCopyRows_panics : ¬ ∀ std buffer columns options,
    Answers (parseCopyRows std buffer columns options) := by
  intro h
  have hrows : parseCopyRows .floatless [92, 92, 120, 97, 195, 169, 98] [⟨"b", 0, .bytes⟩] .default =
      .error sliced := by decide +kernel
  rcases h .floatless [92, 92, 120, 97, 195, 169, 98] [⟨"b", 0, .bytes⟩] .default with ⟨rows, h⟩ | ⟨e, h⟩
  · rw [hrows] at h; cases h
  · rw [hrows] at h; cases h

end AntDb.Copy
