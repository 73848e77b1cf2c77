/-
  The text that `COPY TO STDOUT` writes, and the options of a `COPY`.

  A value is rendered and then escaped field by field; `NULL` is written as the null string,
  which is not escaped.
-/
import AntDb.Copy

namespace AntDb

/-- The options of the statement; identifiers are their names. -/
inductive CopyOption where
  | format (name : String)
  | freeze (freeze : Bool)
  | delimiter (delimiter : Char)
  | null (null : String)
  | header (header : Bool)
  | quote (quote : Char)
  | escape (escape : Char)
  | forceQuote (columns : List String)
  | forceNotNull (columns : List String)
  | forceNull (columns : List String)
  | encoding (encoding : String)
deriving DecidableEq

/-- `to_string` of the floats, which is not modelled here. -/
structure StdFormatting where
  formatF32 : NotNan 8 23 → String
  formatF64 : NotNan 11 52 → String

/-- A writing of COPY data that has no floats. -/
def StdFormatting.floatless : StdFormatting := ⟨fun _ => "0", fun _ => "0"⟩

namespace Copy

/-! ## Options -/

def applyCopyOption (parsed : CopyOptions) : CopyOption → Except DataBaseErrors CopyOptions
  | .format name =>
    if normalizeIdentifier name = "binary" then .ok { parsed with binary := true }
    else if normalizeIdentifier name ≠ "text" ∧ normalizeIdentifier name ≠ "csv" then
      .error (.queryError s!"Unsupported COPY format '{name}'")
    else .ok parsed
  | .delimiter delimiter => .ok { parsed with delimiter := delimiter }
  | .null null => .ok { parsed with nullString := null }
  | .header header => .ok { parsed with header := header }
  | _ => .ok parsed

def parseCopyOptions (options : List CopyOption) : Except DataBaseErrors CopyOptions :=
  options.foldlM applyCopyOption .default

/-! ## Fields -/

def escapeChar (delimiter c : Char) : List Char :=
  if c = '\\' then ['\\', '\\']
  else if c = '\n' then ['\\', 'n']
  else if c = '\r' then ['\\', 'r']
  else if c = '\t' then ['\\', 't']
  else if c = delimiter then ['\\', c]
  else [c]

def escapeCopyField (value : String) (delimiter : Char) : List Char :=
  value.toList.flatMap (escapeChar delimiter)

/-- `join`. -/
def joinFields (delimiter : Char) (fields : List (List Char)) : List Char :=
  [delimiter].intercalate fields

/-! ## Values -/

def encodeHex (bytes : List UInt8) : String :=
  String.ofList (bytes.flatMap fun byte =>
    [Nat.digitChar (byte.toNat / 16), Nat.digitChar (byte.toNat % 16)])

/-- What `format_copy_value` escapes; nothing for `NULL`. -/
def rendered (fmt : StdFormatting) : DataBaseDataEntry → Option String
  | .null => none
  | .boolean flag => some (if flag then "t" else "f")
  | .integerU8 v => some v.toNat.repr
  | .integerU16 v => some v.toNat.repr
  | .integerU32 v => some v.toNat.repr
  | .integerU64 v => some v.toNat.repr
  | .integerU128 v => some v.toNat.repr
  | .integerI8 v => some v.toInt.repr
  | .integerI16 v => some v.toInt.repr
  | .integerI32 v => some v.toInt.repr
  | .integerI64 v => some v.toInt.repr
  | .integerI128 v => some v.toInt.repr
  | .floatF32 v => some (fmt.formatF32 v)
  | .floatF64 v => some (fmt.formatF64 v)
  | .string v => some v
  | .bytes v => some ("\\\\x" ++ encodeHex v)
  | .timestamp v => some v.toInt.repr

def formatCopyValue (fmt : StdFormatting) (value : DataBaseDataEntry) (nullString : String)
    (delimiter : Char) : List Char :=
  match rendered fmt value with
  | none => nullString.toList
  | some text => escapeCopyField text delimiter

/-! ## Rows -/

/-- The line of a row, without its line feed. -/
def encodeCopyRow (fmt : StdFormatting) (columns : List CopyColumnSpec) (options : CopyOptions)
    (row : RowData) : List Char :=
  joinFields options.delimiter (columns.map fun column =>
    formatCopyValue fmt ((row[column.columnId]?).getD .null) options.nullString options.delimiter)

def encodeCopyPayload (fmt : StdFormatting) (rows : List (RowID × RowData))
    (columns : List CopyColumnSpec) (options : CopyOptions) : Except DataBaseErrors (List UInt8) :=
  if options.binary then .error (.queryError "COPY binary format is not supported")
  else
    let header := if options.header then
        joinFields options.delimiter (columns.map fun column =>
          escapeCopyField column.name options.delimiter) ++ ['\n']
      else []
    let lines := rows.flatMap fun row => encodeCopyRow fmt columns options row.2 ++ ['\n']
    .ok (String.ofList (header ++ lines)).toUTF8.data.toList

end Copy

end AntDb
