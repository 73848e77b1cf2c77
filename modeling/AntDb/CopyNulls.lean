/-
  Which entries are `NULL` in the rows that are copied back from what `COPY TO` wrote.
-/
import AntDb.CopyRoundTrip

namespace AntDb.Copy

open Gathering

variable {fmt : StdFormatting} {std : StdParsing} {columns : List CopyColumnSpec} {row parsed : RowData}
  {entry : DataBaseDataEntry} {line rest : List Char} {all : List (List Char)}

/-! ## Lines -/

theorem splitLines_char {c : Char} {first : List Char} {others : List (List Char)} (hc : c ≠ '\n')
    (h : splitLines rest = first :: others) : splitLines (c :: rest) = (c :: first) :: others := by
  rw [splitLines.eq_def]
  split
  · rename_i heq; cases heq
  · rename_i heq; exact absurd (List.cons.inj heq).1 hc
  · rename_i heq
    cases heq
    rw [h]

theorem splitLines_line (h : '\n' ∉ line) :
    splitLines (line ++ '\n' :: rest) = line :: splitLines rest := by
  induction line with
  | nil => rfl
  | cons c line ih =>
    rw [List.mem_cons, not_or] at h
    exact splitLines_char (Ne.symm h.1) (ih h.2)

theorem splitLines_lines (h : ∀ line ∈ all, '\n' ∉ line) :
    splitLines (all.flatMap (· ++ ['\n'])) = all ++ [[]] := by
  induction all with
  | nil => rfl
  | cons line all ih =>
    rw [List.flatMap_cons, List.append_assoc, List.singleton_append, splitLines_line (h line (by simp)),
      ih fun other hother => h other (by simp [hother])]
    rfl

theorem stripCarriageReturn_eq (h : '\r' ∉ line) : stripCarriageReturn line = line := by
  unfold stripCarriageReturn
  exact if_neg fun hlast => h (List.mem_of_getLast? hlast)

/-- The lines of written lines. -/
theorem lines_lines (h : ∀ line ∈ all, LineFree line) : lines (all.flatMap (· ++ ['\n'])) = all := by
  rw [lines, splitLines_lines fun line hline => (h line hline).1]
  simp only [List.dropLast_concat, List.getLast?_concat, Option.getD_some, if_true, List.append_nil]
  exact (List.map_congr_left fun line hline => stripCarriageReturn_eq (h line hline).2).trans
    (List.map_id _)

theorem mem_joinFields {delimiter c : Char} (h : c ∈ joinFields delimiter all) :
    c = delimiter ∨ ∃ field ∈ all, c ∈ field := by
  induction all with
  | nil => cases h
  | cons field all ih =>
    rw [joinFields] at ih h
    cases all with
    | nil =>
      rw [List.intercalate_singleton] at h
      exact Or.inr ⟨field, by simp, h⟩
    | cons field' all =>
      rw [List.intercalate_cons_cons, List.mem_append, List.mem_append, List.mem_singleton] at h
      rcases h with (hfield | rfl) | hall
      · exact Or.inr ⟨field, by simp, hfield⟩
      · exact Or.inl rfl
      · rcases ih hall with heq | ⟨other, hother, hc⟩
        · exact Or.inl heq
        · exact Or.inr ⟨other, List.mem_cons_of_mem _ hother, hc⟩

theorem lineFree_formatted : LineFree (formatCopyValue fmt entry "\\N" '\t') := by
  rw [formatCopyValue]
  cases rendered fmt entry with
  | none => exact ⟨by decide, by decide⟩
  | some text =>
    have hfree : ∀ c ∈ escapeCopyField text '\t', c ≠ '\n' ∧ c ≠ '\r' := by
      intro c hc
      obtain ⟨d, -, hc⟩ := List.mem_flatMap.1 hc
      obtain ⟨hn, hr⟩ : LineFree (escapeUnit '\t' (some d)) := lineFree_escapeUnit (by rintro ⟨⟩)
      exact ⟨fun h => hn (h ▸ hc), fun h => hr (h ▸ hc)⟩
    exact ⟨fun h => (hfree _ h).1 rfl, fun h => (hfree _ h).2 rfl⟩

/-! ## Written rows -/

/-- The entry of a row for a column. -/
def entryOf (row : RowData) (column : CopyColumnSpec) : DataBaseDataEntry :=
  (row[column.columnId]?).getD .null

theorem lineFree_row : LineFree (encodeCopyRow fmt columns .default row) := by
  have hfree : ∀ c ∈ encodeCopyRow fmt columns .default row, c ≠ '\n' ∧ c ≠ '\r' := by
    intro c hc
    rcases mem_joinFields hc with rfl | ⟨field, hfield, hc⟩
    · exact ⟨by decide, by decide⟩
    · obtain ⟨column, -, rfl⟩ := List.mem_map.1 hfield
      obtain ⟨hn, hr⟩ : LineFree (formatCopyValue fmt (entryOf row column) "\\N" '\t') :=
        lineFree_formatted
      exact ⟨fun h => hn (h ▸ hc), fun h => hr (h ▸ hc)⟩
  exact ⟨fun h => (hfree _ h).1 rfl, fun h => (hfree _ h).2 rfl⟩

/-- The fields of a written row. -/
theorem splitCopyFields_row (h : columns ≠ []) :
    splitCopyFields (encodeCopyRow fmt columns .default row) '\t' =
      columns.map fun column => fieldText fmt (entryOf row column) := by
  refine splitCopyFields_joined (by decide) (by simpa using h) ?_
  rw [List.forall₂_map_left_iff, List.forall₂_map_right_iff, List.forall₂_same]
  exact fun column _ => readsAs_formatted

/-- Nothing is written of the row. -/
def Blank (fmt : StdFormatting) (columns : List CopyColumnSpec) (row : RowData) : Prop :=
  columns = [] ∨ ∃ column, columns = [column] ∧ rendered fmt (entryOf row column) = some ""

theorem formatted_eq_nil : formatCopyValue fmt entry "\\N" '\t' = [] ↔ rendered fmt entry = some "" := by
  rw [formatCopyValue]
  cases rendered fmt entry with
  | none => exact iff_of_false (by decide) (by rintro ⟨⟩)
  | some text =>
    dsimp only
    rw [escapeCopyField, List.flatMap_eq_nil_iff, Option.some.injEq]
    constructor
    · intro h
      have hnil : text.toList = [] := by
        refine List.eq_nil_iff_forall_not_mem.2 fun c hc => ?_
        have hescape := h c hc
        rw [escapeChar] at hescape
        split_ifs at hescape
      simpa using hnil
    · rintro rfl
      simp

theorem encodeCopyRow_eq_nil : encodeCopyRow fmt columns .default row = [] ↔ Blank fmt columns row := by
  rw [Blank]
  cases columns with
  | nil => exact iff_of_true rfl (Or.inl rfl)
  | cons column columns =>
    cases columns with
    | nil =>
      have hrow : encodeCopyRow fmt [column] .default row =
          formatCopyValue fmt (entryOf row column) "\\N" '\t' := by
        rw [encodeCopyRow, List.map_singleton, joinFields, List.intercalate_singleton]
        rfl
      rw [hrow, formatted_eq_nil]
      simp
    | cons other columns =>
      refine iff_of_false (fun h => ?_) (by simp)
      rw [encodeCopyRow, List.map_cons, List.map_cons, joinFields, List.intercalate_cons_cons] at h
      simp at h

/-! ## Rows that are copied back -/

/-- The last column with its id. -/
def Last (columns : List CopyColumnSpec) (column : CopyColumnSpec) : Prop :=
  ∃ pre post, columns = pre ++ column :: post ∧ ∀ other ∈ post, other.columnId ≠ column.columnId

theorem exists_last {id : ColumnID} (h : ∃ column ∈ columns, column.columnId = id) :
    ∃ last, Last columns last ∧ last.columnId = id := by
  induction columns with
  | nil => obtain ⟨column, ⟨⟩, -⟩ := h
  | cons first columns ih =>
    by_cases hlater : ∃ other ∈ columns, other.columnId = id
    · obtain ⟨last, ⟨pre, post, rfl, hpost⟩, hid⟩ := ih hlater
      exact ⟨last, ⟨first :: pre, post, rfl, hpost⟩, hid⟩
    · obtain ⟨column, hcolumn, rfl⟩ := h
      rcases List.mem_cons.1 hcolumn with rfl | hmem
      · exact ⟨column, ⟨[], columns, rfl, fun other hother hid => hlater ⟨other, hother, hid⟩⟩, rfl⟩
      · exact absurd ⟨column, hmem, rfl⟩ hlater

theorem mem_of_last {column : CopyColumnSpec} (h : Last columns column) : column ∈ columns := by
  obtain ⟨pre, post, rfl, -⟩ := h
  simp

section Insert

variable {value : CopyColumnSpec → Except Fault DataBaseDataEntry} {column : CopyColumnSpec}

/-- The entries of a line, column by column. -/
def insertValues (value : CopyColumnSpec → Except Fault DataBaseDataEntry) (row : RowData)
    (columns : List CopyColumnSpec) : Except Fault RowData :=
  columns.foldlM (fun row column => do return row.insert column.columnId (← value column)) row

theorem insertValues_cons {columns : List CopyColumnSpec}
    (h : insertValues value row (column :: columns) = .ok parsed) :
    ∃ v, value column = .ok v ∧ insertValues value (row.insert column.columnId v) columns = .ok parsed := by
  rw [insertValues, List.foldlM_cons] at h
  cases hvalue : value column with
  | error e => rw [hvalue] at h; cases h
  | ok v =>
    rw [hvalue] at h
    exact ⟨v, rfl, h⟩

theorem insertValues_of_ne {id : ColumnID} (hne : ∀ other ∈ columns, other.columnId ≠ id)
    (h : insertValues value row columns = .ok parsed) : parsed[id]? = row[id]? := by
  induction columns generalizing row with
  | nil =>
    cases h
    rfl
  | cons column columns ih =>
    obtain ⟨v, -, h⟩ := insertValues_cons h
    rw [ih (fun other hother => hne other (by simp [hother])) h, Std.ExtTreeMap.getElem?_insert]
    exact if_neg fun hcompare => hne column (by simp) (Std.LawfulEqOrd.eq_of_compare hcompare)

theorem insertValues_last (hlast : Last columns column) (h : insertValues value row columns = .ok parsed) :
    ∃ v, value column = .ok v ∧ parsed[column.columnId]? = some v := by
  obtain ⟨pre, post, rfl, hpost⟩ := hlast
  induction pre generalizing row with
  | nil =>
    obtain ⟨v, hv, h⟩ := insertValues_cons h
    refine ⟨v, hv, ?_⟩
    rw [insertValues_of_ne hpost h, Std.ExtTreeMap.getElem?_insert_self]
  | cons first pre ih =>
    obtain ⟨w, -, h⟩ := insertValues_cons h
    exact ih h

end Insert

/-- The line that was written of a row is read column by column. -/
theorem parseCopyRow_row (h : columns ≠ []) :
    parseCopyRow std columns .default (encodeCopyRow fmt columns .default row) =
      insertValues (fun column =>
        parseCopyValue std (fieldText fmt (entryOf row column)) column.dataType "\\N") ∅ columns := by
  have hsplit : splitCopyFields (encodeCopyRow fmt columns .default row) CopyOptions.default.delimiter =
      columns.map fun column => fieldText fmt (entryOf row column) := splitCopyFields_row h
  unfold parseCopyRow insertValues
  dsimp only
  rw [hsplit, List.length_map, if_neg (not_not_intro rfl)]
  have hzip : (columns.map fun column => fieldText fmt (entryOf row column)).zip columns =
      columns.map fun column => (fieldText fmt (entryOf row column), column) := by
    conv_lhs => rw [← List.map_id columns, List.map_map, List.zip_map']
    rfl
  rw [hzip, List.foldlM_map]
  rfl

theorem not_written_null {text : String} {dataType : DataBaseDataType} :
    ¬ Written dataType text .null := by
  intro h
  cases dataType with
  | null | floatF32 | floatF64 | string => exact h
  | bytes => obtain ⟨hex, bytes, ⟨⟩, -⟩ := h
  | boolean | integerU8 | integerU16 | integerU32 | integerU64 | integerU128 | integerI8 | integerI16
    | integerI32 | integerI64 | integerI128 | timestamp => obtain ⟨w, ⟨⟩, -⟩ := h

theorem floatValue_ne_null {text : String} {e m : ℕ} {result : Except String (Option (NotNan e m))}
    {make : NotNan e m → DataBaseDataEntry} (h : ∀ x, make x ≠ .null) :
    floatValue text result make ≠ .ok .null := by
  intro hnull
  cases result with
  | error message => cases hnull
  | ok value =>
    cases value with
    | none => cases hnull
    | some x => exact h x (Except.ok.inj hnull)

theorem parseCopyValue_eq_null {text nullString : String} {dataType : DataBaseDataType} :
    parseCopyValue std text dataType nullString = .ok .null ↔ text = nullString ∨ dataType = .null := by
  by_cases hnull : text = nullString
  · exact iff_of_true (parseCopyValue_null hnull) (Or.inl hnull)
  rw [or_iff_right hnull]
  by_cases hchecked : isChecked dataType = true
  · rw [parseCopyValue_checked hchecked hnull]
    refine iff_of_false not_written_null ?_
    rintro rfl
    cases hchecked
  rw [parseCopyValue.eq_def, if_neg hnull]
  cases dataType with
  | null => exact iff_of_true rfl rfl
  | floatF32 | floatF64 => exact iff_of_false (floatValue_ne_null (by rintro x ⟨⟩)) (by rintro ⟨⟩)
  | string => exact iff_of_false (by rintro ⟨⟩) (by rintro ⟨⟩)
  | timestamp =>
    dsimp only
    cases parseInteger (-2 ^ 63) (2 ^ 63 - 1) text <;> exact iff_of_false (by rintro ⟨⟩) (by rintro ⟨⟩)
  | bytes =>
    refine iff_of_false ?_ (by rintro ⟨⟩)
    dsimp only
    split
    · rename_i hex htext
      rintro h
      cases hhex : decodeHex hex with
      | error fault => rw [hhex] at h; cases h
      | ok decoded => cases decoded <;> rw [hhex] at h <;> cases h
    · rintro ⟨⟩
  | boolean | integerU8 | integerU16 | integerU32 | integerU64 | integerU128 | integerI8 | integerI16
    | integerI32 | integerI64 | integerI128 => exact absurd rfl hchecked

/-- The entries for the columns are `NULL` in the row that is copied back exactly if they were. -/
def TellsNulls (columns : List CopyColumnSpec) (row back : RowData) : Prop :=
  ∀ column ∈ columns, back[column.columnId]? = some .null ↔ entryOf row column = .null

/-- Only the type of its column makes a written entry `NULL`. -/
def Distinct (fmt : StdFormatting) (column : CopyColumnSpec) (entry : DataBaseDataEntry) : Prop :=
  (entry = .null → column.dataType = .null) ∧
    (entry ≠ .null → rendered fmt entry ≠ some "\\N" ∧ column.dataType ≠ .null)

theorem distinct_iff {column : CopyColumnSpec} : Distinct fmt column entry ↔
    ((fieldText fmt entry = "\\N" ∨ column.dataType = .null) ↔ entry = .null) := by
  rw [Distinct, fieldText]
  by_cases hnull : entry = .null
  · subst hnull
    simp [rendered]
  · obtain ⟨text, htext⟩ : ∃ text, rendered fmt entry = some text := rendered_isSome hnull
    simp [htext, hnull]

theorem tellsNulls_iff (h : columns ≠ [])
    (hparsed : parseCopyRow std columns .default (encodeCopyRow fmt columns .default row) = .ok parsed) :
    TellsNulls columns row parsed ↔
      ∀ column, Last columns column → Distinct fmt column (entryOf row column) := by
  rw [parseCopyRow_row h] at hparsed
  have hlast : ∀ column, Last columns column →
      (parsed[column.columnId]? = some .null ↔
        (fieldText fmt (entryOf row column) = "\\N" ∨ column.dataType = .null)) := by
    intro column hcolumn
    obtain ⟨v, hv, hentry⟩ := insertValues_last hcolumn hparsed
    have hnull : parseCopyValue std (fieldText fmt (entryOf row column)) column.dataType "\\N" = .ok .null ↔ _ :=
      parseCopyValue_eq_null
    rw [hentry, ← hnull, hv]
    simp
  constructor
  · intro htells column hcolumn
    rw [distinct_iff, ← hlast column hcolumn]
    exact htells column (mem_of_last hcolumn)
  · intro hdistinct column hcolumn
    obtain ⟨last, hl, hid⟩ := exists_last ⟨column, hcolumn, rfl⟩
    have hentry : entryOf row column = entryOf row last := by rw [entryOf, entryOf, hid]
    rw [hentry, ← hid, hlast last hl]
    exact distinct_iff.1 (hdistinct last hl)

/-! ## The payload -/

theorem dataLines_rows (fmt : StdFormatting) (columns : List CopyColumnSpec) (rows : List RowData) :
    dataLines .default (rows.flatMap fun row => encodeCopyRow fmt columns .default row ++ ['\n']) =
      (rows.map (encodeCopyRow fmt columns .default)).filter (· ≠ []) := by
  have hfree : ∀ line ∈ rows.map (encodeCopyRow fmt columns .default), LineFree line := by
    intro line hline
    obtain ⟨row, -, rfl⟩ := List.mem_map.1 hline
    exact lineFree_row
  have hlines := lines_lines hfree
  rw [List.flatMap_map] at hlines
  rw [dataLines, hlines]
  rfl

/-- The rows that are read from a payload are read from the lines that are not blank. -/
theorem parseCopyRows_payload {rows : List (RowID × RowData)} {payload : List UInt8}
    (h : encodeCopyPayload fmt rows columns .default = .ok payload) :
    parseCopyRows std payload columns .default =
      (((rows.map Prod.snd).map (encodeCopyRow fmt columns .default)).filter (· ≠ [])).mapM
        (parseCopyRow std columns .default) := by
  have hpayload : payload = (rows.flatMap fun row =>
      encodeCopyRow fmt columns .default row.2 ++ ['\n']).utf8Encode.data.toList := by
    rw [← String.toByteArray_ofList]
    exact (Except.ok.inj h).symm
  have hdecode : ByteArray.utf8Decode? ⟨payload.toArray⟩ = some (rows.flatMap fun row =>
      encodeCopyRow fmt columns .default row.2 ++ ['\n']).toArray := by
    rw [hpayload, Array.toArray_toList]
    exact List.utf8Decode?_utf8Encode
  have hrows : (rows.flatMap fun row => encodeCopyRow fmt columns .default row.2 ++ ['\n']) =
      (rows.map Prod.snd).flatMap fun row => encodeCopyRow fmt columns .default row ++ ['\n'] := by
    rw [List.flatMap_map]
  have hlines := dataLines_rows fmt columns (rows.map Prod.snd)
  rw [← hrows] at hlines
  rw [← hlines, parseCopyRows, if_neg (by decide), hdecode]
  rfl

/-- **COPY text tells NULL from data** exactly if no line is blank and no entry is taken for
    another by its type or its text. -/
theorem copy_tells_iff {rows : List (RowID × RowData)} {payload : List UInt8} {backs : List RowData}
    (hpayload : encodeCopyPayload fmt rows columns .default = .ok payload)
    (hbacks : parseCopyRows std payload columns .default = .ok backs) :
    List.Forall₂ (TellsNulls columns) (rows.map Prod.snd) backs ↔
      ∀ row ∈ rows, ¬ Blank fmt columns row.2 ∧
        ∀ column, Last columns column → Distinct fmt column (entryOf row.2 column) := by
  rw [parseCopyRows_payload hpayload] at hbacks
  have hall := mapM_ok_iff.1 hbacks
  have hmapped : (∀ row ∈ rows, ¬ Blank fmt columns row.2 ∧
      ∀ column, Last columns column → Distinct fmt column (entryOf row.2 column)) ↔
      (∀ row ∈ rows.map Prod.snd, ¬ Blank fmt columns row) ∧
        ∀ row ∈ rows.map Prod.snd, ∀ column, Last columns column →
          Distinct fmt column (entryOf row column) := by
    rw [List.forall_mem_map, List.forall_mem_map, ← forall₂_and]
  rw [hmapped]
  by_cases hblank : ∀ row ∈ rows.map Prod.snd, ¬ Blank fmt columns row
  · rw [and_iff_right hblank]
    have hkeep : ((rows.map Prod.snd).map (encodeCopyRow fmt columns .default)).filter (· ≠ []) =
        (rows.map Prod.snd).map (encodeCopyRow fmt columns .default) := by
      refine List.filter_eq_self.2 fun line hline => ?_
      obtain ⟨row, hrow, rfl⟩ := List.mem_map.1 hline
      exact decide_eq_true fun hnil => hblank row hrow (encodeCopyRow_eq_nil.1 hnil)
    rw [hkeep, List.forall₂_map_left_iff] at hall
    refine forall₂_iff hall fun row hrow back hback => tellsNulls_iff ?_ hback
    rintro rfl
    exact hblank row hrow (Or.inl rfl)
  · refine iff_of_false (fun htells => hblank ?_) fun h => hblank h.1
    -- a row that is not read back leaves the list shorter
    have hlength : (((rows.map Prod.snd).map (encodeCopyRow fmt columns .default)).filter (· ≠ [])).length =
        ((rows.map Prod.snd).map (encodeCopyRow fmt columns .default)).length := by
      rw [hall.length_eq, ← htells.length_eq, List.length_map (encodeCopyRow fmt columns .default)]
    intro row hrow hrowBlank
    have hkept := List.length_filter_eq_length_iff.1 hlength _ (List.mem_map_of_mem hrow)
    exact of_decide_eq_true hkept (encodeCopyRow_eq_nil.2 hrowBlank)

/-- A row with a text. -/
def textRow : RowData := Std.ExtTreeMap.ofList [(0, .string "a\tb")] compare

theorem copy_tells_string : ∃ payload backs,
    encodeCopyPayload .floatless [(1, textRow)] [⟨"a", 0, .string⟩] .default = .ok payload ∧
      parseCopyRows .floatless payload [⟨"a", 0, .string⟩] .default = .ok backs ∧
        List.Forall₂ (TellsNulls [⟨"a", 0, .string⟩]) [textRow] backs := by
  have hpayload : encodeCopyPayload .floatless [(1, textRow)] [⟨"a", 0, .string⟩] .default =
      .ok [97, 92, 116, 98, 10] := by decide +kernel
  have hok : (parseCopyRows .floatless [97, 92, 116, 98, 10] [⟨"a", 0, .string⟩] .default).isOk = true := by
    decide +kernel
  cases hbacks : parseCopyRows .floatless [97, 92, 116, 98, 10] [⟨"a", 0, .string⟩] .default with
  | error fault => rw [hbacks] at hok; cases hok
  | ok backs =>
    refine ⟨_, backs, hpayload, hbacks, (copy_tells_iff hpayload hbacks).2 ?_⟩
    intro row hrow
    obtain rfl : row = (1, textRow) := by simpa using hrow
    have hentry : entryOf textRow ⟨"a", 0, .string⟩ = .string "a\tb" := by decide +kernel
    refine ⟨?_, fun column hlast => ?_⟩
    · rintro (hnil | ⟨column, hcolumn, hempty⟩)
      · cases hnil
      cases hcolumn
      rw [hentry] at hempty
      exact absurd hempty (by decide)
    · obtain rfl : column = ⟨"a", 0, .string⟩ := by simpa using mem_of_last hlast
      rw [hentry]
      exact ⟨by rintro ⟨⟩, fun _ => ⟨by decide, by decide⟩⟩

/-- `NULL` in a column of texts is read as the letter `N`. -/
theorem copy_null_as_text : ¬ ∀ fmt std columns rows payload backs,
    encodeCopyPayload fmt rows columns .default = .ok payload →
      parseCopyRows std payload columns .default = .ok backs →
        List.Forall₂ (TellsNulls columns) (rows.map Prod.snd) backs := by
  intro h
  have hpayload : encodeCopyPayload .floatless [(1, ∅)] [⟨"a", 0, .string⟩] .default =
      .ok [92, 78, 10] := by decide +kernel
  have hread : (parseCopyRows .floatless [92, 78, 10] [⟨"a", 0, .string⟩] .default).map
      (·.map (·[0]?)) = .ok [some (.string "N")] := by decide +kernel
  cases hbacks : parseCopyRows .floatless [92, 78, 10] [⟨"a", 0, .string⟩] .default with
  | error fault => rw [hbacks] at hread; cases hread
  | ok backs =>
    have htells := h .floatless .floatless _ [(1, ∅)] _ backs hpayload hbacks
    rw [hbacks] at hread
    cases htells with
    | @cons _ back _ backs htells _ =>
      have hnull : back[0]? = some .null := (htells ⟨"a", 0, .string⟩ (by simp)).2 (by decide +kernel)
      have htext : back[0]? = some (.string "N") := by
        have := Except.ok.inj hread
        simp only [List.map_cons, List.cons.injEq] at this
        exact this.1
      rw [hnull] at htext
      cases htext

end AntDb.Copy
