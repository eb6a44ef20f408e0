import FormWeaver.Path.Basic
import FormWeaver.Text.Numeral

/-!
# File URLs

A location of the class path is known by its `file:` URL. Writing one escapes every byte of the
path that is not an ASCII letter, a digit, a slash, a colon or one of the four marks that need no
escape; reading one undoes percent escapes of any bytes. `decodeBytes` reads one escape after the
other and refuses one that is no number.
-/

namespace FormWeaver.Classpath

/-- The number that the two characters of an escape spell: two digits, or a plus sign and one. -/
def escapeValue? (a b : Char) : Option Nat :=
  match Text.hexValue? b with
  | none => none
  | some low =>
    if a = '+' then some low
    else (Text.hexValue? a).map fun high => high * 16 + low

/-! ## Reading -/

/-- The bytes that an escaped text stands for. -/
def decodeBytes : List Char → Option (List UInt8)
  | [] => some []
  | '%' :: a :: b :: rest =>
    match escapeValue? a b with
    | none => none
    | some n => (decodeBytes rest).map (UInt8.ofNat n :: ·)
  | c :: rest => if c = '%' then none else (decodeBytes rest).map (String.utf8EncodeChar c ++ ·)

/-- The text that an escaped text stands for, when its bytes are UTF-8. -/
def percentDecode (cs : List Char) : Option String :=
  (decodeBytes cs).bind fun bytes => String.fromUTF8? bytes.toByteArray

/-- Whether a text can be the scheme of a URL. A single letter cannot. -/
def isScheme (cs : List Char) : Bool :=
  match cs with
  | first :: _ :: _ =>
    first.isAlpha && cs.all fun c => c.isAlphanum || c == '+' || c == '-' || c == '.'
  | _ => false

/-- What follows the authority of a URL: the path from its first slash, or the root when there is
none. A text without an authority is left as it is. -/
def dropAuthority : List Char → List Char
  | '/' :: '/' :: rest =>
    match rest.dropWhile (· != '/') with
    | [] => ['/']
    | path => path
  | cs => cs

/-! ## Writing -/

/-- Whether a byte stands for itself in a URL. -/
def isPlainByte (b : UInt8) : Bool :=
  let c := Char.ofNat b.toNat
  b.toNat < 0x80 && (c.isAlphanum || c == '/' || c == '-' || c == '.' || c == '_' || c == '~' || c == ':')

/-- How a URL shows a byte; an escape has upper-case digits. -/
def encodeByte (b : UInt8) : List Char :=
  if isPlainByte b then [Char.ofNat b.toNat]
  else '%' :: (Text.hexPair b.toNat).map Char.toUpper

/-- How a URL shows a text. -/
def percentEncode (s : String) : String :=
  String.ofList (s.toUTF8.data.toList.flatMap encodeByte)

/-- The text behind `file://` before it is escaped: slashes for backslashes, a slash at the
beginning, and one at the end of a directory. -/
def urlPath (p : Path) (directory : Bool) : String :=
  let text := Text.replaceChar '\\' '/' p.text
  let text := if text.toList.head? == some '/' then text else "/" ++ text
  if directory && text.toList.getLast? != some '/' then text ++ "/" else text

/-- The URL of a path. -/
def fileUrl (p : Path) (directory : Bool) : String := "file://" ++ percentEncode (urlPath p directory)

end FormWeaver.Classpath
