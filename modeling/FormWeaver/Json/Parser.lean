import FormWeaver.Json.Basic

/-!
# Reading JSON

The reader takes a whole text as one value, with blanks around it. Blanks are the space, the tab, the
line feed and the carriage return. A string holds no control character below the space; an escape of
a leading surrogate has to be followed by that of a trailing one, or else the string is garbled, and
so is an object that has a garbled string for the name of a member. Values nest to any depth: each step of the descent
consumes a character, so the length of the text bounds it.
-/

namespace FormWeaver.Json

/-- Whether a character may stand between the parts of a value. -/
def isSpace (c : Char) : Bool := c == ' ' || c == '\t' || c == '\n' || c == '\r'

/-- Drops the blanks at the beginning. -/
def skipSpace (cs : List Char) : List Char := cs.dropWhile isSpace

/-! ## Strings -/

/-- The number that four hexadecimal digits spell. -/
def unit? (a b c d : Char) : Option Nat :=
  match Text.hexValue? a, Text.hexValue? b, Text.hexValue? c, Text.hexValue? d with
  | some a, some b, some c, some d => some (a * 4096 + b * 256 + c * 16 + d)
  | _, _, _, _ => none

/-- A piece of a string: a character, or a code unit that an escape spells. -/
inductive Piece where
  | char (c : Char)
  | unit (n : Nat)

/-- The pieces of a string whose opening quote has been read, and the text behind its closing one. -/
def pieces? : List Char → Option (List Piece × List Char)
  | [] => none
  | '"' :: rest => some ([], rest)
  | '\\' :: 'u' :: a :: b :: c :: d :: rest =>
    match unit? a b c d with
    | none => none
    | some n => (pieces? rest).map fun (ps, r) => (.unit n :: ps, r)
  | '\\' :: e :: rest =>
    let simple : Option Char :=
      if e = '"' || e = '\\' || e = '/' then some e
      else if e = 'b' then some '\x08'
      else if e = 'f' then some '\x0c'
      else if e = 'n' then some '\n'
      else if e = 'r' then some '\r'
      else if e = 't' then some '\t'
      else none
    match simple with
    | none => none
    | some c => (pieces? rest).map fun (ps, r) => (.char c :: ps, r)
  | c :: rest =>
    if c = '\\' || c.toNat < 0x20 then none
    else (pieces? rest).map fun (ps, r) => (.char c :: ps, r)

/-- The text that pieces denote: a leading and a trailing surrogate make one character, and either
without the other makes none. -/
def textOf? : List Piece → Option (List Char)
  | [] => some []
  | .char c :: ps => (textOf? ps).map (c :: ·)
  | .unit n :: ps =>
    if 0xD800 ≤ n && n ≤ 0xDBFF then
      match ps with
      | .unit m :: rest =>
        if 0xDC00 ≤ m && m ≤ 0xDFFF then
          (textOf? rest).map (Char.ofNat (0x10000 + (n - 0xD800) * 0x400 + (m - 0xDC00)) :: ·)
        else none
      | _ => none
    else if 0xDC00 ≤ n && n ≤ 0xDFFF then none
    else (textOf? ps).map (Char.ofNat n :: ·)

/-! ## Numbers -/

/-- Splits off the digits at the beginning. -/
def digits (cs : List Char) : List Char × List Char := cs.span Char.isDigit

/-- The whole part of a number: a zero alone, or digits that do not begin with one. -/
def wholePart? (cs : List Char) : Option (List Char × List Char) :=
  match digits cs with
  | ([], _) => none
  | ('0' :: _ :: _, _) => none
  | part => some part

/-- The fraction of a number, which may be missing. -/
def fraction? (cs : List Char) : Option (List Char × List Char) :=
  match cs with
  | '.' :: rest =>
    match digits rest with
    | ([], _) => none
    | (ds, r) => some ('.' :: ds, r)
  | _ => some ([], cs)

/-- The exponent of a number, which may be missing. -/
def exponent? (cs : List Char) : Option (List Char × List Char) :=
  let signed (e : Char) (sign rest : List Char) : Option (List Char × List Char) :=
    match digits rest with
    | ([], _) => none
    | (ds, r) => some (e :: sign ++ ds, r)
  let after (e : Char) (rest : List Char) : Option (List Char × List Char) :=
    match rest with
    | '+' :: r => signed e ['+'] r
    | '-' :: r => signed e ['-'] r
    | _ => signed e [] rest
  match cs with
  | 'e' :: rest => after 'e' rest
  | 'E' :: rest => after 'E' rest
  | _ => some ([], cs)

/-- A number as it is written, and the text behind it. -/
def number? (cs : List Char) : Option (String × List Char) :=
  let (sign, cs) := match cs with
    | '-' :: rest => (['-'], rest)
    | _ => ([], cs)
  match wholePart? cs with
  | none => none
  | some (whole, cs) =>
    match fraction? cs with
    | none => none
    | some (fraction, cs) =>
      match exponent? cs with
      | none => none
      | some (exponent, cs) => some (String.ofList (sign ++ whole ++ fraction ++ exponent), cs)

/-! ## Values -/

/-- The text behind a word that the text begins with. -/
def word? (word cs : List Char) : Option (List Char) := word.isPrefixOf? cs

/-- The name of a member, unless it is garbled, and the text behind its colon. -/
def name? (cs : List Char) : Option (Option String × List Char) :=
  match skipSpace cs with
  | '"' :: rest =>
    match pieces? rest with
    | none => none
    | some (ps, rest) =>
      match skipSpace rest with
      | ':' :: rest => some ((textOf? ps).map String.ofList, rest)
      | _ => none
  | _ => none

/-- The object of members, which is garbled when one of their names is. -/
def objectOf (members : List (Option String × Json)) : Json :=
  match members.mapM fun (name, value) => name.map (·, value) with
  | some members => .object members
  | none => .garbled

mutual

/-- A value at the beginning of a text, and the text behind it. -/
def value? : Nat → List Char → Option (Json × List Char)
  | 0, _ => none
  | fuel + 1, cs =>
    match skipSpace cs with
    | [] => none
    | '"' :: rest =>
      (pieces? rest).map fun (ps, r) =>
        (match textOf? ps with
          | some text => .string (String.ofList text)
          | none => .garbled, r)
    | '[' :: rest =>
      match skipSpace rest with
      | ']' :: r => some (.array [], r)
      | r => (items? fuel r).map fun (items, r) => (.array items, r)
    | '\x7b' :: rest =>
      match skipSpace rest with
      | '\x7d' :: r => some (.object [], r)
      | r => (members? fuel r).map fun (members, r) => (objectOf members, r)
    | 'n' :: rest => (word? ['u', 'l', 'l'] rest).map fun r => (.null, r)
    | 't' :: rest => (word? ['r', 'u', 'e'] rest).map fun r => (.bool true, r)
    | 'f' :: rest => (word? ['a', 'l', 's', 'e'] rest).map fun r => (.bool false, r)
    | c :: rest => (number? (c :: rest)).map fun (literal, r) => (.number literal, r)

/-- The items of an array up to its closing bracket. -/
def items? : Nat → List Char → Option (List Json × List Char)
  | 0, _ => none
  | fuel + 1, cs =>
    match value? fuel cs with
    | none => none
    | some (item, rest) =>
      match skipSpace rest with
      | ',' :: r => (items? fuel r).map fun (items, r) => (item :: items, r)
      | ']' :: r => some ([item], r)
      | _ => none

/-- The members of an object up to its closing brace. -/
def members? : Nat → List Char → Option (List (Option String × Json) × List Char)
  | 0, _ => none
  | fuel + 1, cs =>
    match name? cs with
    | none => none
    | some (name, rest) =>
      match value? fuel rest with
      | none => none
      | some (value, rest) =>
        match skipSpace rest with
        | ',' :: r => (members? fuel r).map fun (members, r) => ((name, value) :: members, r)
        | '\x7d' :: r => some ([(name, value)], r)
        | _ => none

end

/-- The value that a text spells. -/
def parse (text : List Char) : Option Json :=
  match value? (text.length + 1) text with
  | none => none
  | some (value, rest) => if (skipSpace rest).isEmpty then some value else none

/-- The natural number that a number's literal spells with digits alone. -/
def natural? : Json → Option Nat
  | .number literal =>
    if literal.toList.all Char.isDigit then
      some (Text.decimalValue literal.toList)
    else none
  | _ => none

end FormWeaver.Json
