import BoxFirmware.CText

/-! The reading half of the vendored cJSON 1.7.7: `cJSON_Parse` and
`cJSON_GetObjectItem`. The parser works on what is left of the buffer, which is
the text and its terminating zero, so `buffer_skip_whitespace` can always step
back onto that zero. Nested values run on fuel; every value consumes a byte, and
`cjsonParse` gives two units for each byte of the buffer. Allocation failures
are left to the caller: they make `cJSON_Parse` return `NULL` as an error does.
A double is the rational it stands for, and an overflow keeps its size. -/
namespace BoxFirmware.Cjson
open CText

inductive Item
  | null
  | false
  | true
  | number (valueint : Int) (valuedouble : Rat)
  | string (valuestring : List UInt8)
  | array (child : List Item)
  | object (child : List (List UInt8 × Item))

def nestingLimit : Nat := 1000

def tolower (b : UInt8) : UInt8 := if 65 ≤ b ∧ b ≤ 90 then b + 32 else b

def caseInsensitiveEq (string1 string2 : List UInt8) : Bool :=
  (cstr string1).map tolower == (cstr string2).map tolower

/-- `cJSON_GetObjectItem`: the first member of that name. The children of an
array have no name, and the other types have no children. -/
def Item.getObjectItem (item : Item) (name : List UInt8) : Option Item :=
  match item with
  | .object child => (child.find? (fun m => caseInsensitiveEq name m.1)).map Prod.snd
  | _ => none

/-- `buffer_skip_whitespace`: control bytes and blanks, the terminating zero too,
but never past the end. -/
def bufferSkipWhitespace (s : List UInt8) : List UInt8 :=
  match s.dropWhile (· ≤ 32) with
  | [] => [0]
  | rest => rest

def skipUtf8Bom (s : List UInt8) : List UInt8 :=
  if 4 < s.length ∧ [0xEF, 0xBB, 0xBF].isPrefixOf s then s.drop 3 else s

section Numbers

def isDigit (b : UInt8) : Bool := 48 ≤ b ∧ b ≤ 57

def isNumberByte (b : UInt8) : Bool :=
  isDigit b || b == 43 || b == 45 || b == 101 || b == 69 || b == 46

def digitsValue (ds : List UInt8) : Nat := ds.foldl (fun n d => n * 10 + (d.toNat - 48)) 0

def roundHalfEven (q : Rat) : Int :=
  let low := q.floor
  let rest := q - low
  if rest < 1 / 2 then low
  else if 1 / 2 < rest then low + 1
  else if low % 2 = 0 then low else low + 1

/-- The exponent `e` with `2^e ≤ q < 2^(e+1)`, for positive `q`. -/
def binaryExponent (q : Rat) : Int :=
  let e := (Nat.log2 q.num.natAbs : Int) - Nat.log2 q.den
  if q < (2 : Rat)^e then e - 1 else e

def roundDouble (q : Rat) : Rat :=
  if q = 0 then 0
  else
    let size := if q < 0 then -q else q
    let scale := (2 : Rat)^(max (binaryExponent size - 52) (-1074))
    let rounded := (roundHalfEven (size / scale) : Rat) * scale
    if q < 0 then -rounded else rounded

/-- The exponent part `e[+-]digits`, with the bytes it takes; nothing unless a digit follows. -/
def strtodExponent : List UInt8 → Int × Nat
  | e :: rest =>
    if e = 101 ∨ e = 69 then
      let sign := match rest with
        | c :: _ => if c = 43 ∨ c = 45 then 1 else 0
        | [] => 0
      let ds := (rest.drop sign).takeWhile isDigit
      if ds = [] then (0, 0)
      else
        let value : Int := digitsValue ds
        (if rest.head? = some 45 then -value else value, 1 + sign + ds.length)
    else (0, 0)
  | [] => (0, 0)

/-- `strtod` on the bytes `parse_number` lets through: the value and the number of
bytes converted, 0 when there is no number. -/
def strtod (s : List UInt8) : Rat × Nat :=
  let sign := match s with
    | c :: _ => if c = 43 ∨ c = 45 then 1 else 0
    | [] => 0
  let rest := s.drop sign
  let whole := rest.takeWhile isDigit
  let rest := rest.drop whole.length
  let point := if rest.head? = some 46 then 1 else 0
  let frac := if point = 1 then (rest.drop 1).takeWhile isDigit else []
  if whole = [] ∧ frac = [] then (0, 0)
  else
    let (exponent, taken) := strtodExponent (rest.drop (point + frac.length))
    let mantissa : Rat := digitsValue (whole ++ frac)
    let value := mantissa * (10 : Rat)^(exponent - frac.length)
    (roundDouble (if s.head? = some 45 then -value else value),
      sign + whole.length + point + frac.length + taken)

/-- `valueint`: truncation, saturated to an `int`. -/
def saturate (number : Rat) : Int :=
  if number ≥ 2147483647 then 2147483647
  else if number ≤ -2147483648 then -2147483648
  else Int.tdiv number.num number.den

def parseNumber (s : List UInt8) : Option (Item × List UInt8) :=
  let (number, taken) := strtod ((s.take 63).takeWhile isNumberByte)
  if taken = 0 then none else some (.number (saturate number) number, s.drop taken)

end Numbers

section Strings

def hexDigit (b : UInt8) : Option Nat :=
  if isDigit b then some (b.toNat - 48)
  else if 65 ≤ b ∧ b ≤ 70 then some (b.toNat - 55)
  else if 97 ≤ b ∧ b ≤ 102 then some (b.toNat - 87)
  else none

def parseHex4 (s : List UInt8) : Nat :=
  match (s.take 4).mapM hexDigit with
  | some [a, b, c, d] => ((a * 16 + b) * 16 + c) * 16 + d
  | _ => 0

def utf8Bytes (codepoint : Nat) : List UInt8 :=
  let tail (k : Nat) : UInt8 := UInt8.ofNat (codepoint / 64^k % 64 + 128)
  if codepoint < 0x80 then [UInt8.ofNat codepoint]
  else if codepoint < 0x800 then [UInt8.ofNat (codepoint / 64 + 192), tail 0]
  else if codepoint < 0x10000 then [UInt8.ofNat (codepoint / 4096 + 224), tail 1, tail 0]
  else [UInt8.ofNat (codepoint / 262144 + 240), tail 2, tail 1, tail 0]

/-- `utf16_literal_to_utf8`: the bytes written and the length of the literal. -/
def utf16LiteralToUtf8 (s : List UInt8) : Option (List UInt8 × Nat) :=
  if s.length < 6 then none
  else
    let first := parseHex4 (s.drop 2)
    if 0xDC00 ≤ first ∧ first ≤ 0xDFFF then none
    else if 0xD800 ≤ first ∧ first ≤ 0xDBFF then
      let second := s.drop 6
      let code := parseHex4 (second.drop 2)
      if second.length < 6 ∨ second.take 2 ≠ [92, 117] ∨ code < 0xDC00 ∨ 0xDFFF < code then none
      else some (utf8Bytes (0x10000 + first % 1024 * 1024 + code % 1024), 12)
    else some (utf8Bytes first, 6)

def scanString : List UInt8 → Option (List UInt8 × List UInt8)
  | [] => none
  | b :: rest =>
    if b = 34 then some ([], rest)
    else if b = 92 then
      match rest with
      | [] => none
      | c :: rest => (scanString rest).map (fun r => (b :: c :: r.1, r.2))
    else (scanString rest).map (fun r => (b :: r.1, r.2))

/-- The copying loop of `parse_string`; every pass takes at least a byte. -/
def unescape : (fuel : Nat) → List UInt8 → Option (List UInt8)
  | 0, s => if s = [] then some [] else none
  | fuel + 1, s =>
    match s with
    | [] => some []
    | b :: rest =>
      if b ≠ 92 then (unescape fuel rest).map (b :: ·)
      else match rest with
        | [] => none
        | c :: after =>
          let one (d : UInt8) := (unescape fuel after).map (d :: ·)
          if c = 98 then one 8
          else if c = 102 then one 12
          else if c = 110 then one 10
          else if c = 114 then one 13
          else if c = 116 then one 9
          else if c = 34 ∨ c = 92 ∨ c = 47 then one c
          else if c = 117 then
            (utf16LiteralToUtf8 s).bind fun (bytes, length) =>
              (unescape fuel (s.drop length)).map (bytes ++ ·)
          else none

def parseString (s : List UInt8) : Option (List UInt8 × List UInt8) :=
  match s with
  | [] => none
  | b :: rest =>
    if b ≠ 34 then none
    else (scanString rest).bind fun (raw, after) =>
      (unescape raw.length raw).map (fun output => (output, after))

end Strings

mutual

def parseValue : (fuel depth : Nat) → List UInt8 → Option (Item × List UInt8)
  | 0, _, _ => none
  | fuel + 1, depth, s =>
    if (ascii "null").isPrefixOf s then some (.null, s.drop 4)
    else if (ascii "false").isPrefixOf s then some (.false, s.drop 5)
    else if (ascii "true").isPrefixOf s then some (.true, s.drop 4)
    else match s with
      | [] => none
      | b :: rest =>
        if b = 34 then (parseString s).map (fun (v, after) => (.string v, after))
        else if b = 45 ∨ isDigit b then parseNumber s
        else if b = 91 then
          if nestingLimit ≤ depth then none
          else if (bufferSkipWhitespace rest).head? = some 93 then
            some (.array [], (bufferSkipWhitespace rest).drop 1)
          else (parseElements fuel (depth + 1) rest).map (fun (c, after) => (.array c, after))
        else if b = 123 then
          if nestingLimit ≤ depth then none
          else if (bufferSkipWhitespace rest).head? = some 125 then
            some (.object [], (bufferSkipWhitespace rest).drop 1)
          else (parseMembers fuel (depth + 1) rest).map (fun (c, after) => (.object c, after))
        else none

def parseElements : (fuel depth : Nat) → List UInt8 → Option (List Item × List UInt8)
  | 0, _, _ => none
  | fuel + 1, depth, s =>
    (parseValue fuel depth (bufferSkipWhitespace s)).bind fun (item, after) =>
      match bufferSkipWhitespace after with
      | [] => none
      | b :: rest =>
        if b = 44 then (parseElements fuel depth rest).map (fun (c, after) => (item :: c, after))
        else if b = 93 then some ([item], rest)
        else none

def parseMembers : (fuel depth : Nat) → List UInt8 →
    Option (List (List UInt8 × Item) × List UInt8)
  | 0, _, _ => none
  | fuel + 1, depth, s =>
    (parseString (bufferSkipWhitespace s)).bind fun (name, after) =>
      match bufferSkipWhitespace after with
      | [] => none
      | colon :: rest =>
        if colon ≠ 58 then none
        else (parseValue fuel depth (bufferSkipWhitespace rest)).bind fun (item, after) =>
          match bufferSkipWhitespace after with
          | [] => none
          | b :: rest =>
            if b = 44 then
              (parseMembers fuel depth rest).map (fun (c, after) => ((name, item) :: c, after))
            else if b = 125 then some ([(name, item)], rest)
            else none

end

/-- `cJSON_Parse` of the C string at `value`; text behind the value is ignored. -/
def cjsonParse (value : List UInt8) : Option Item :=
  let buffer := cstr value ++ [0]
  (parseValue (2 * buffer.length) 0 (bufferSkipWhitespace (skipUtf8Bom buffer))).map Prod.fst

end BoxFirmware.Cjson
