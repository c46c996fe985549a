import CkbDilithium.Lib.NumberText

/-!
# JSON

Values, `JSON.stringify` with an indentation, and `JSON.parse`. The members of an object are kept as they are
written; of two members with one key the later one is read (`Json.member?`). A value whose numbers are
natural numbers that a double can count is read back from its text, with any white space for an
indentation (`parse_stringify`), so that its text determines it.
-/

namespace CkbDilithium.Js

inductive Json where
  | null
  | bool (value : Bool)
  | number (value : JsNumber)
  | string (value : JsString)
  | array (items : List Json)
  | object (members : List (JsString × Json))

/-- `value.key`, for an own property. -/
def Json.member? (key : JsString) : Json → Option Json
  | .object members => (members.reverse.find? fun member => member.1 == key).map Prod.snd
  | _ => none

/-! ### Printing -/

def isLeadingSurrogate (c : UInt16) : Bool := 0xd800 ≤ c && c ≤ 0xdbff

def isTrailingSurrogate (c : UInt16) : Bool := 0xdc00 ≤ c && c ≤ 0xdfff

/-- The letter of a two-unit escape. -/
def escapeLetter (c : UInt16) : Option UInt16 :=
  if c = 8 then some (unit 'b')
  else if c = 9 then some (unit 't')
  else if c = 10 then some (unit 'n')
  else if c = 12 then some (unit 'f')
  else if c = 13 then some (unit 'r')
  else if c = unit '"' then some (unit '"')
  else if c = unit '\\' then some (unit '\\')
  else none

/-- Four hexadecimal digits. -/
def fourDigits (c : UInt16) : JsString :=
  [digitUnit (c.toNat / 4096), digitUnit (c.toNat / 256 % 16), digitUnit (c.toNat / 16 % 16),
    digitUnit (c.toNat % 16)]

/-- A code unit inside quotes: control characters and lone surrogates have a numeric escape. -/
def escapeUnit (c : UInt16) : JsString :=
  match escapeLetter c with
  | some letter => [unit '\\', letter]
  | none =>
    if c < 32 ∨ isLeadingSurrogate c ∨ isTrailingSurrogate c then unit '\\' :: unit 'u' :: fourDigits c
    else [c]

/-- A surrogate pair is left as it is. -/
def quoteUnits : JsString → JsString
  | [] => []
  | [c] => escapeUnit c
  | c :: d :: s =>
    if isLeadingSurrogate c ∧ isTrailingSurrogate d then c :: d :: quoteUnits s
    else escapeUnit c ++ quoteUnits (d :: s)

def quoteString (s : JsString) : JsString := unit '"' :: (quoteUnits s ++ [unit '"'])

/-- A line break and the indentation; without a gap the text is on one line. -/
def lineBreak (gap indent : JsString) : JsString := if gap = [] then [] else 10 :: indent

/-- The colon after a key. -/
def colon (gap : JsString) : JsString := if gap = [] then lit ":" else lit ": "

mutual

/-- `JSON.stringify(value, null, gap)` at an indentation. -/
def Json.print (gap indent : JsString) : Json → JsString
  | .null => lit "null"
  | .bool value => if value then lit "true" else lit "false"
  | .number value =>
    match value with
    | .finite q => numberToString (.finite q)
    | _ => lit "null"
  | .string value => quoteString value
  | .array [] => lit "[]"
  | .array (item :: items) =>
    unit '[' :: (lineBreak gap (indent ++ gap) ++ item.print gap (indent ++ gap) ++
      Json.printItems gap (indent ++ gap) items ++ lineBreak gap indent ++ [unit ']'])
  | .object [] => lit "\x7b\x7d"
  | .object ((key, value) :: members) =>
    unit '\x7b' :: (lineBreak gap (indent ++ gap) ++ quoteString key ++ colon gap ++
      value.print gap (indent ++ gap) ++ Json.printMembers gap (indent ++ gap) members ++
      lineBreak gap indent ++ [unit '\x7d'])

/-- The items after the first. -/
def Json.printItems (gap indent : JsString) : List Json → JsString
  | [] => []
  | item :: items =>
    unit ',' :: (lineBreak gap indent ++ item.print gap indent ++ Json.printItems gap indent items)

/-- The members after the first. -/
def Json.printMembers (gap indent : JsString) : List (JsString × Json) → JsString
  | [] => []
  | (key, value) :: members =>
    unit ',' :: (lineBreak gap indent ++ quoteString key ++ colon gap ++ value.print gap indent ++
      Json.printMembers gap indent members)

end

def Json.stringify (gap : JsString) (value : Json) : JsString := value.print gap []

/-! ### Reading -/

/-- The white space of JSON. -/
def isJsonSpace (c : UInt16) : Bool := c == 9 || c == 10 || c == 13 || c == 32

def skipSpace (s : JsString) : JsString := s.dropWhile isJsonSpace

/-- What the letter of a two-unit escape stands for. -/
def unescapeLetter (c : UInt16) : Option UInt16 :=
  if c = unit 'b' then some 8
  else if c = unit 't' then some 9
  else if c = unit 'n' then some 10
  else if c = unit 'f' then some 12
  else if c = unit 'r' then some 13
  else if c = unit '"' ∨ c = unit '\\' ∨ c = unit '/' then some c
  else none

/-- The units up to the closing quote, and what follows it. -/
def parseUnits : JsString → Option (JsString × JsString)
  | [] => none
  | c :: s =>
    if c = unit '"' then some ([], s)
    else if c < 32 then none
    else if c ≠ unit '\\' then (parseUnits s).map fun p => (c :: p.1, p.2)
    else
      match s with
      | [] => none
      | d :: t =>
        if d ≠ unit 'u' then
          (unescapeLetter d).bind fun e => (parseUnits t).map fun p => (e :: p.1, p.2)
        else
          match t with
          | h₁ :: h₂ :: h₃ :: h₄ :: t =>
            (parseDigits 16 [h₁, h₂, h₃, h₄]).bind fun e =>
              (parseUnits t).map fun p => (UInt16.ofNat e :: p.1, p.2)
          | _ => none

/-- A non-empty run of digits. -/
def parseDigitRun (s : JsString) : Option (JsString × JsString) :=
  if s.takeWhile isDigit = [] then none else some (s.takeWhile isDigit, s.dropWhile isDigit)

/-- The digits before the point: `0`, or a run that does not start with it. -/
def parseWhole : JsString → Option (JsString × JsString)
  | [] => none
  | c :: s => if c = unit '0' then some ([c], s) else parseDigitRun (c :: s)

/-- A point and digits, or nothing. -/
def parseFraction : JsString → Option (JsString × JsString)
  | [] => some ([], [])
  | c :: s =>
    if c = unit '.' then (parseDigitRun s).map fun p => (c :: p.1, p.2) else some ([], c :: s)

/-- An exponent, or nothing. -/
def parseExponentPart : JsString → Option (JsString × JsString)
  | [] => some ([], [])
  | c :: s =>
    if c = unit 'e' ∨ c = unit 'E' then
      match s with
      | d :: t =>
        if d = unit '+' ∨ d = unit '-' then (parseDigitRun t).map fun p => (c :: d :: p.1, p.2)
        else (parseDigitRun s).map fun p => (c :: p.1, p.2)
      | [] => none
    else some ([], c :: s)

/-- The text of a number without its sign, and what follows. -/
def parseMagnitude (s : JsString) : Option (JsString × JsString) :=
  (parseWhole s).bind fun whole =>
    (parseFraction whole.2).bind fun fraction =>
      (parseExponentPart fraction.2).map fun exponent => (whole.1 ++ fraction.1 ++ exponent.1, exponent.2)

def parseNumber : JsString → Option (JsNumber × JsString)
  | [] => none
  | c :: s =>
    if c = unit '-' then (parseMagnitude s).map fun p => (stringToNumber (c :: p.1), p.2)
    else (parseMagnitude (c :: s)).map fun p => (stringToNumber p.1, p.2)

/-- The rest after a word. -/
def dropWord (word s : JsString) : Option JsString :=
  if word.isPrefixOf s then some (s.drop word.length) else none

mutual

/-- A value and what follows it. -/
def parseValue : (fuel : Nat) → JsString → Option (Json × JsString)
  | 0, _ => none
  | fuel + 1, s =>
    match skipSpace s with
    | [] => none
    | c :: s =>
      if c = unit '"' then (parseUnits s).map fun p => (.string p.1, p.2)
      else if c = unit '[' then
        if (skipSpace s).head? = some (unit ']') then some (.array [], (skipSpace s).tail)
        else (parseItems fuel s).map fun p => (.array p.1, p.2)
      else if c = unit '\x7b' then
        if (skipSpace s).head? = some (unit '\x7d') then some (.object [], (skipSpace s).tail)
        else (parseMembers fuel s).map fun p => (.object p.1, p.2)
      else if c = unit 'n' then (dropWord (lit "null") (c :: s)).map fun rest => (.null, rest)
      else if c = unit 't' then (dropWord (lit "true") (c :: s)).map fun rest => (.bool true, rest)
      else if c = unit 'f' then (dropWord (lit "false") (c :: s)).map fun rest => (.bool false, rest)
      else (parseNumber (c :: s)).map fun p => (.number p.1, p.2)

/-- The items up to the closing bracket. -/
def parseItems : (fuel : Nat) → JsString → Option (List Json × JsString)
  | 0, _ => none
  | fuel + 1, s =>
    (parseValue fuel s).bind fun item =>
      match skipSpace item.2 with
      | [] => none
      | c :: rest =>
        if c = unit ',' then (parseItems fuel rest).map fun p => (item.1 :: p.1, p.2)
        else if c = unit ']' then some ([item.1], rest)
        else none

/-- The members up to the closing brace. -/
def parseMembers : (fuel : Nat) → JsString → Option (List (JsString × Json) × JsString)
  | 0, _ => none
  | fuel + 1, s =>
    match skipSpace s with
    | [] => none
    | c :: s =>
      if c ≠ unit '"' then none
      else (parseUnits s).bind fun key =>
        match skipSpace key.2 with
        | [] => none
        | c :: rest =>
          if c ≠ unit ':' then none
          else (parseValue fuel rest).bind fun value =>
            match skipSpace value.2 with
            | [] => none
            | c :: rest =>
              if c = unit ',' then (parseMembers fuel rest).map fun p => ((key.1, value.1) :: p.1, p.2)
              else if c = unit '\x7d' then some ([(key.1, value.1)], rest)
              else none

end

/-- `JSON.parse(text)`; `none` is the `SyntaxError`. A value has at most as many parts as code units. -/
def Json.parse (text : JsString) : Option Json :=
  (parseValue (text.length + 1) text).bind fun p => if skipSpace p.2 = [] then some p.1 else none

end CkbDilithium.Js
