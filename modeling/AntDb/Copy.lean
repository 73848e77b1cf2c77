/-
  The text format of `COPY FROM STDIN`: lines, fields, escapes and values.

  Text is a list of characters.  `StdParsing` stands for what the standard library parses
  that is not modelled here: floats, and the message for bytes that are no UTF-8.
-/
import AntDb.Search
import AntDb.Table

namespace AntDb

structure CopyOptions where
  delimiter : Char
  nullString : String
  header : Bool
  binary : Bool
deriving DecidableEq

namespace CopyOptions

def default : CopyOptions where
  delimiter := '\t'
  nullString := "\\N"
  header := false
  binary := false

end CopyOptions

structure CopyColumnSpec where
  name : String
  columnId : ColumnID
  dataType : DataBaseDataType
deriving DecidableEq

/-- A parsed float is `none` if it is a NaN. -/
structure StdParsing where
  utf8Error : List UInt8 → String
  parseF32 : String → Except String (Option (NotNan 8 23))
  parseF64 : String → Except String (Option (NotNan 11 52))
  /-- `current_timestamp_micros` -/
  now : Int64

/-- A reading of COPY data that has no floats. -/
def StdParsing.floatless : StdParsing where
  utf8Error _ := "invalid utf-8 sequence"
  parseF32 _ := .error "invalid float literal"
  parseF64 _ := .error "invalid float literal"
  now := 0

namespace Copy

/-! ## Lines and fields -/

/-- The lines of `text`, each with its line feed removed. -/
def splitLines : List Char → List (List Char)
  | [] => [[]]
  | '\n' :: text => [] :: splitLines text
  | c :: text =>
    match splitLines text with
    | line :: lines => (c :: line) :: lines
    | [] => [[c]]

def stripCarriageReturn (line : List Char) : List Char :=
  if line.getLast? = some '\r' then line.dropLast else line

/-- `str::lines`: a carriage return before a line feed belongs to the line ending. -/
def lines (text : List Char) : List (List Char) :=
  let all := splitLines text
  let last := (all.getLast?).getD []
  all.dropLast.map stripCarriageReturn ++ if last = [] then [] else [last]

def octalDigit (c : Char) : Option ℕ :=
  if '0' ≤ c ∧ c ≤ '7' then some (c.toNat - '0'.toNat) else none

/-- The octal escape that starts with `digit`: its value, and the text after its at most two
    further digits. -/
def octalEscape (digit : ℕ) : List Char → ℕ × List Char
  | c :: rest =>
    match octalDigit c with
    | none => (digit, c :: rest)
    | some second =>
      match rest with
      | d :: rest' =>
        match octalDigit d with
        | some third => (digit * 64 + second * 8 + third, rest')
        | none => (digit * 8 + second, rest)
      | [] => (digit * 8 + second, [])
  | [] => (digit, [])

theorem octalEscape_length (digit : ℕ) (text : List Char) :
    (octalEscape digit text).2.length ≤ text.length := by
  unfold octalEscape
  split
  · split
    · exact le_rfl
    · split
      · split <;> simp only [List.length_cons] <;> omega
      · simp
  · exact le_rfl

/-- The loop of `split_copy_fields`. -/
def splitFields (delimiter : Char) (fields : List String) (current : List Char) :
    List Char → List String
  | [] => fields ++ [String.ofList current]
  | '\\' :: [] => fields ++ [String.ofList (current ++ ['\\'])]
  | '\\' :: c :: text =>
    match octalDigit c with
    | some digit =>
      let escape := octalEscape digit text
      -- more than a byte is dropped
      splitFields delimiter fields
        (if escape.1 < 256 then current ++ [Char.ofNat escape.1] else current) escape.2
    | none =>
      let char := match c with
        | 'b' => Char.ofNat 0x08
        | 'f' => Char.ofNat 0x0c
        | 'n' => '\n'
        | 'r' => '\r'
        | 't' => '\t'
        | 'v' => Char.ofNat 0x0b
        | other => other
      splitFields delimiter fields (current ++ [char]) text
  | c :: text =>
    if c = delimiter then splitFields delimiter (fields ++ [String.ofList current]) [] text
    else splitFields delimiter fields (current ++ [c]) text
termination_by text => text.length
decreasing_by
  all_goals simp only [List.length_cons]
  · have := octalEscape_length digit text; omega
  all_goals omega

def splitCopyFields (line : List Char) (delimiter : Char) : List String :=
  splitFields delimiter [] [] line

/-! ## Values -/

def decimalDigit (c : Char) : Option ℕ :=
  if '0' ≤ c ∧ c ≤ '9' then some (c.toNat - '0'.toNat) else none

/-- The digits of a number after its sign, checked against the range of its type one by one. -/
def parseDigits (negative : Bool) (lo hi : ℤ) (value : ℤ) : List Char → Except String ℤ
  | [] => .ok value
  | c :: digits =>
    match decimalDigit c with
    | none => .error "invalid digit found in string"
    | some digit =>
      let value := if negative then value * 10 - digit else value * 10 + digit
      if value < lo then .error "number too small to fit in target type"
      else if hi < value then .error "number too large to fit in target type"
      else parseDigits negative lo hi value digits

/-- `parse` of an integer type with the values from `lo` to `hi`. -/
def parseInteger (lo hi : ℤ) (text : String) : Except String ℤ :=
  match text.toList with
  | [] => .error "cannot parse integer from empty string"
  | ['+'] | ['-'] => .error "invalid digit found in string"
  | '+' :: digits => parseDigits false lo hi 0 digits
  | '-' :: digits =>
    if lo < 0 then parseDigits true lo hi 0 digits else .error "invalid digit found in string"
  | digits => parseDigits false lo hi 0 digits

def hexDigit (c : Char) : Option ℕ :=
  if '0' ≤ c ∧ c ≤ '9' then some (c.toNat - '0'.toNat)
  else if 'a' ≤ c ∧ c ≤ 'f' then some (c.toNat - 'a'.toNat + 10)
  else if 'A' ≤ c ∧ c ≤ 'F' then some (c.toNat - 'A'.toNat + 10)
  else none

/-- `u8::from_str_radix` of a slice of two characters; a plus sign may stand before a digit. -/
def parseHexPair (c d : Char) : Except String UInt8 :=
  match hexDigit c, hexDigit d with
  | some high, some low => .ok (UInt8.ofNat (high * 16 + low))
  | none, some low => if c = '+' then .ok (UInt8.ofNat low) else .error "invalid digit found in string"
  | _, none => .error "invalid digit found in string"

/-- The loop of `decode_hex` over slices of two bytes; a slice that ends inside a character is a
    panic. -/
def decodeHexPairs (decoded : List UInt8) : List Char → Except Fault (Except String (List UInt8))
  | [] => .ok (.ok decoded)
  | [c] =>
    if c.utf8Size = 2 then .ok (.error "invalid digit found in string")
    else .error (.panic "byte index is not a char boundary")
  | c :: d :: text =>
    if c.utf8Size = 2 then .ok (.error "invalid digit found in string")
    else if c.utf8Size ≠ 1 ∨ d.utf8Size ≠ 1 then .error (.panic "byte index is not a char boundary")
    else
      match parseHexPair c d with
      | .error message => .ok (.error message)
      | .ok byte => decodeHexPairs (decoded ++ [byte]) text

def decodeHex (text : List Char) : Except Fault (Except String (List UInt8)) :=
  if (text.map Char.utf8Size).sum % 2 ≠ 0 then
    .ok (.error "hex input must have an even number of characters")
  else decodeHexPairs [] text

def parseBoolean (text : String) : Option Bool :=
  if normalizeIdentifier text ∈ ["t", "true", "yes", "1"] then some true
  else if normalizeIdentifier text ∈ ["f", "false", "no", "0"] then some false
  else none

def invalidInteger (text message : String) : Fault :=
  .err (.queryError s!"Invalid integer '{text}': {message}")

/-- An integer of the type with the values from `lo` to `hi`. -/
def integerValue (text : String) (lo hi : ℤ) (entry : ℤ → DataBaseDataEntry) :
    Except Fault DataBaseDataEntry :=
  match parseInteger lo hi text with
  | .ok value => .ok (entry value)
  | .error message => .error (invalidInteger text message)

def floatValue {e m : ℕ} (text : String) (parsed : Except String (Option (NotNan e m)))
    (entry : NotNan e m → DataBaseDataEntry) : Except Fault DataBaseDataEntry :=
  match parsed with
  | .ok (some value) => .ok (entry value)
  | .ok none => .error (.err (.queryError "COPY float value must not be NaN"))
  | .error message => .error (.err (.queryError s!"Invalid float '{text}': {message}"))

def parseCopyValue (std : StdParsing) (text : String) (dataType : DataBaseDataType)
    (nullString : String) : Except Fault DataBaseDataEntry :=
  if text = nullString then .ok .null
  else match dataType with
  | .boolean =>
    match parseBoolean text with
    | some value => .ok (.boolean value)
    | none => .error (.err (.queryError s!"Invalid boolean value '{text}' in COPY data"))
  | .integerU8 => integerValue text 0 (2 ^ 8 - 1) fun n => .integerU8 (UInt8.ofNat n.toNat)
  | .integerU16 => integerValue text 0 (2 ^ 16 - 1) fun n => .integerU16 (UInt16.ofNat n.toNat)
  | .integerU32 => integerValue text 0 (2 ^ 32 - 1) fun n => .integerU32 (UInt32.ofNat n.toNat)
  | .integerU64 => integerValue text 0 (2 ^ 64 - 1) fun n => .integerU64 (UInt64.ofNat n.toNat)
  | .integerU128 => integerValue text 0 (2 ^ 128 - 1) fun n => .integerU128 (BitVec.ofNat 128 n.toNat)
  | .integerI8 => integerValue text (-2 ^ 7) (2 ^ 7 - 1) fun n => .integerI8 (Int8.ofInt n)
  | .integerI16 => integerValue text (-2 ^ 15) (2 ^ 15 - 1) fun n => .integerI16 (Int16.ofInt n)
  | .integerI32 => integerValue text (-2 ^ 31) (2 ^ 31 - 1) fun n => .integerI32 (Int32.ofInt n)
  | .integerI64 => integerValue text (-2 ^ 63) (2 ^ 63 - 1) fun n => .integerI64 (Int64.ofInt n)
  | .integerI128 => integerValue text (-2 ^ 127) (2 ^ 127 - 1) fun n => .integerI128 (BitVec.ofInt 128 n)
  | .floatF32 => floatValue text (std.parseF32 text) .floatF32
  | .floatF64 => floatValue text (std.parseF64 text) .floatF64
  | .string => .ok (.string text)
  | .bytes =>
    match text.toList with
    | '\\' :: 'x' :: hex => do
      match ← decodeHex hex with
      | .ok bytes => return .bytes bytes
      | .error message => .error (.err (.queryError s!"Invalid bytea value '{text}': {message}"))
    | _ => .ok (.bytes text.toUTF8.toList)
  | .null => .ok .null
  | .timestamp =>
    -- text that is no number is taken for the current time
    match parseInteger (-2 ^ 63) (2 ^ 63 - 1) text with
    | .ok value => .ok (.timestamp (Int64.ofInt value))
    | .error _ => .ok (.timestamp std.now)

/-! ## Rows -/

def parseCopyRow (std : StdParsing) (columns : List CopyColumnSpec) (options : CopyOptions)
    (line : List Char) : Except Fault RowData :=
  let fields := splitCopyFields line options.delimiter
  if fields.length ≠ columns.length then
    .error (.err (.queryError
      s!"COPY row has {fields.length} fields but {columns.length} columns were expected"))
  else
    (fields.zip columns).foldlM (fun row x => do
      return row.insert x.2.columnId (← parseCopyValue std x.1 x.2.dataType options.nullString)) ∅

/-- `parse_copy_rows`: empty lines are skipped, and the first other line is if it is a header. -/
def parseCopyRows (std : StdParsing) (buffer : List UInt8) (columns : List CopyColumnSpec)
    (options : CopyOptions) : Except Fault (List RowData) :=
  if options.binary then .error (.err (.queryError "COPY binary format is not supported"))
  else match ByteArray.utf8Decode? ⟨buffer.toArray⟩ with
  | none => .error (.err (.queryError s!"COPY data must be valid UTF-8 text: {std.utf8Error buffer}"))
  | some text =>
    let rows := (lines text.toList).filter (· ≠ [])
    (if options.header then rows.drop 1 else rows).mapM (parseCopyRow std columns options)

end Copy

end AntDb
