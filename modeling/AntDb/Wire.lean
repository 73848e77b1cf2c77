/-
  The fields of a query result on the wire.

  A column that a row has is sent as the text of its entry, and the text of `NULL` is the empty one;
  only a column that a row does not have is sent as SQL NULL.
-/
import AntDb.CopyFormat

namespace AntDb.Wire

/-- `to_wire_text`. -/
def toWireText (fmt : StdFormatting) : DataBaseDataEntry → String
  | .null => ""
  | .boolean flag => if flag then "t" else "f"
  | .integerU8 v => v.toNat.repr
  | .integerU16 v => v.toNat.repr
  | .integerU32 v => v.toNat.repr
  | .integerU64 v => v.toNat.repr
  | .integerU128 v => v.toNat.repr
  | .integerI8 v => v.toInt.repr
  | .integerI16 v => v.toInt.repr
  | .integerI32 v => v.toInt.repr
  | .integerI64 v => v.toInt.repr
  | .integerI128 v => v.toInt.repr
  | .floatF32 v => fmt.formatF32 v
  | .floatF64 v => fmt.formatF64 v
  | .string v => v
  | .bytes v => "\\x" ++ Copy.encodeHex v
  | .timestamp v => v.toInt.repr

/-- `encode_field` of a column; `none` is SQL NULL. -/
def encodeField (fmt : StdFormatting) (row : SearchResult) (columnName : String) : Option String :=
  row.values[columnName]?.map (toWireText fmt)

/-- The fields of a row. -/
def encodeRow (fmt : StdFormatting) (columnNames : List String) (row : SearchResult) :
    List (Option String) :=
  columnNames.map (encodeField fmt row)

/-! ## Telling values apart -/

/-- What a column can hold, floats left out. -/
def InColumn (dataType : DataBaseDataType) (entry : DataBaseDataEntry) : Prop :=
  entry = .null ∨ entry.dataType = dataType ∧ dataType ≠ .floatF32 ∧ dataType ≠ .floatF64

/-- Two rows have the same field in a column of this type only if they have the same entry there. -/
def Apart (fmt : StdFormatting) (dataType : DataBaseDataType) : Prop :=
  ∀ columnName : String, ∀ row row' : SearchResult, ∀ entry entry',
    row.values[columnName]? = some entry → row'.values[columnName]? = some entry' →
    InColumn dataType entry → InColumn dataType entry' →
    encodeField fmt row columnName = encodeField fmt row' columnName → entry = entry'

/-- A field of a column of this type is SQL NULL exactly for `NULL`. -/
def NullIsNull (fmt : StdFormatting) (dataType : DataBaseDataType) : Prop :=
  ∀ columnName : String, ∀ row : SearchResult, ∀ entry, row.values[columnName]? = some entry →
    InColumn dataType entry → (encodeField fmt row columnName = none ↔ entry = .null)

variable {fmt : StdFormatting} {dataType : DataBaseDataType} {entry entry' : DataBaseDataEntry}
  {columnName : String} {row : SearchResult}

theorem encodeField_of_value (h : row.values[columnName]? = some entry) :
    encodeField fmt row columnName = some (toWireText fmt entry) := by rw [encodeField, h, Option.map_some]

/-- A row with one column. -/
def single (columnName : String) (entry : DataBaseDataEntry) : SearchResult :=
  { rowId := 0, values := (∅ : BTreeMap String DataBaseDataEntry).insert columnName entry }

theorem values_single : (single columnName entry).values[columnName]? = some entry :=
  Std.ExtTreeMap.getElem?_insert_self

/-! ## Texts -/

theorem digitChar_inj : ∀ m < 16, ∀ n < 16, Nat.digitChar m = Nat.digitChar n → m = n := by decide

theorem encodeHex_injective {bytes bytes' : List UInt8} (h : Copy.encodeHex bytes = Copy.encodeHex bytes') :
    bytes = bytes' := by
  unfold Copy.encodeHex at h
  have hlist := congrArg String.toList h
  rw [String.toList_ofList, String.toList_ofList] at hlist
  clear h
  induction bytes generalizing bytes' with
  | nil =>
    cases bytes' with
    | nil => rfl
    | cons => cases hlist
  | cons b bytes ih =>
    cases bytes' with
    | nil => cases hlist
    | cons b' bytes' =>
      simp only [List.flatMap_cons, List.cons_append, List.nil_append, List.cons.injEq] at hlist
      obtain ⟨hhigh, hlow, hrest⟩ := hlist
      have hb := b.toNat_lt
      have hb' := b'.toNat_lt
      have hdiv := digitChar_inj _ (by omega) _ (by omega) hhigh
      have hmod := digitChar_inj _ (by omega) _ (by omega) hlow
      have heq : b = b' := UInt8.toNat_inj.1 (by omega)
      rw [heq, ih hrest]

theorem toWireText_injective (htype : entry.dataType = entry'.dataType)
    (hfloat : entry.dataType ≠ .floatF32 ∧ entry.dataType ≠ .floatF64)
    (htext : toWireText fmt entry = toWireText fmt entry') : entry = entry' := by
  cases entry <;> cases entry' <;> cases htype
  case null.null.refl => rfl
  case floatF32.floatF32.refl => exact absurd rfl hfloat.1
  case floatF64.floatF64.refl => exact absurd rfl hfloat.2
  case string.string.refl => exact congrArg _ htext
  case bytes.bytes.refl => exact congrArg _ (encodeHex_injective (String.append_right_inj _ |>.1 htext))
  case boolean.boolean.refl flag flag' =>
    cases flag <;> cases flag' <;> simp [toWireText] at htext ⊢
  all_goals
    simp only [toWireText, Nat.repr_inj, Int.repr_inj, UInt8.toNat_inj, UInt16.toNat_inj, UInt32.toNat_inj,
      UInt64.toNat_inj, BitVec.toNat_inj, Int8.toInt_inj, Int16.toInt_inj, Int32.toInt_inj, Int64.toInt_inj,
      BitVec.toInt_inj] at htext
    rw [htext]

/-- The text of a value is empty for the empty text only. -/
theorem eq_string_of_empty (hnull : entry ≠ .null)
    (hfloat : entry.dataType ≠ .floatF32 ∧ entry.dataType ≠ .floatF64)
    (htext : toWireText fmt entry = "") : entry = .string "" := by
  have hint (n : ℤ) : n.repr ≠ "" := by
    rw [Int.repr_eq_if]
    split_ifs
    · exact Nat.repr_ne_empty
    · simp
  cases entry
  case null => exact absurd rfl hnull
  case floatF32 => exact absurd rfl hfloat.1
  case floatF64 => exact absurd rfl hfloat.2
  case string text => exact congrArg _ htext
  case bytes => simp [toWireText] at htext
  case boolean flag => cases flag <;> simp [toWireText] at htext
  all_goals
    first
    | exact absurd htext Nat.repr_ne_empty
    | exact absurd htext (hint _)

/-! ## The encoder -/

/-- Rows with different values of a column have different fields, unless texts are among them: the empty
    text is sent as `NULL` is. -/
theorem apart_iff (fmt : StdFormatting) (dataType : DataBaseDataType) :
    Apart fmt dataType ↔ dataType ≠ .string := by
  constructor
  · rintro h rfl
    have hcollide := h "" (single "" .null) (single "" (.string "")) .null (.string "") values_single
      values_single (.inl rfl) (.inr ⟨rfl, by decide⟩) (by
        rw [encodeField_of_value values_single, encodeField_of_value values_single]
        rfl)
    cases hcollide
  · intro hstring columnName row row' entry entry' hvalue hvalue' hin hin' hfield
    rw [encodeField_of_value hvalue, encodeField_of_value hvalue'] at hfield
    have htext := Option.some.inj hfield
    have hempty {entry : DataBaseDataEntry} (hin : InColumn dataType entry)
        (h : toWireText fmt entry = "") : entry = .null := by
      rcases hin with hnull | ⟨rfl, hfloat⟩
      · exact hnull
      · by_contra hnull
        rw [eq_string_of_empty hnull hfloat h] at hstring
        exact hstring rfl
    rcases hin with rfl | ⟨rfl, hfloat⟩
    · exact (hempty hin' htext.symm).symm
    rcases hin' with rfl | ⟨htype, -⟩
    · exact hempty (.inr ⟨rfl, hfloat⟩) htext
    · exact toWireText_injective htype.symm hfloat htext

theorem getElem?_encodeRow {columnNames : List String} {i : ℕ} :
    (encodeRow fmt columnNames row)[i]? = columnNames[i]?.map (encodeField fmt row) :=
  List.getElem?_map

/-- Rows that are sent alike have the same entries, texts and floats aside. -/
theorem eq_of_encodeRow {columnNames : List String} {row' : SearchResult}
    (hrow : encodeRow fmt columnNames row = encodeRow fmt columnNames row')
    (hcolumn : columnName ∈ columnNames) (hstring : dataType ≠ .string)
    (hvalue : row.values[columnName]? = some entry) (hvalue' : row'.values[columnName]? = some entry')
    (hin : InColumn dataType entry) (hin' : InColumn dataType entry') : entry = entry' := by
  obtain ⟨i, hi⟩ := List.getElem?_of_mem hcolumn
  have hfield := congrArg (·[i]?) hrow
  simp only [getElem?_encodeRow, hi, Option.map_some, Option.some.injEq] at hfield
  exact (apart_iff fmt dataType).2 hstring columnName row row' entry entry' hvalue hvalue' hin hin' hfield

/-- `NULL` is sent as an empty text, whatever the type of the column. -/
theorem not_nullIsNull (fmt : StdFormatting) (dataType : DataBaseDataType) : ¬ NullIsNull fmt dataType := by
  intro h
  have hnull := (h "" (single "" .null) .null values_single (.inl rfl)).2 rfl
  rw [encodeField_of_value values_single] at hnull
  cases hnull

/-- No column type keeps `NULL` apart from the values and sends it as SQL NULL. -/
theorem encodeField_never_faithful (fmt : StdFormatting) (dataType : DataBaseDataType) :
    ¬ (Apart fmt dataType ∧ NullIsNull fmt dataType) :=
  fun h => not_nullIsNull fmt dataType h.2

/-- `NULL` and the empty text are sent alike. -/
theorem null_sent_as_empty : ¬ ∀ fmt dataType, Apart fmt dataType ∧ NullIsNull fmt dataType :=
  fun h => (apart_iff .floatless .string).1 (h .floatless .string).1 rfl

end AntDb.Wire
