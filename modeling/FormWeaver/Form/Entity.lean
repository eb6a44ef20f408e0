import FormWeaver.Text.Cut

/-!
# Escaped characters in attribute values

Five characters have entities. An attribute value is unescaped by substituting each entity for its
character in turn, the ampersand's last.
-/

namespace FormWeaver.Form

/-- A character that has an entity. -/
inductive Entity where
  | less | greater | quote | apostrophe | ampersand
  deriving DecidableEq, Repr

namespace Entity

/-- The character an entity stands for. -/
def char : Entity → Char
  | less => '<'
  | greater => '>'
  | quote => '"'
  | apostrophe => '\''
  | ampersand => '&'

/-- The spelling of an entity. -/
def spelling : Entity → List Char
  | less => ['&', 'l', 't', ';']
  | greater => ['&', 'g', 't', ';']
  | quote => ['&', 'q', 'u', 'o', 't', ';']
  | apostrophe => ['&', 'a', 'p', 'o', 's', ';']
  | ampersand => ['&', 'a', 'm', 'p', ';']

/-- The entities in the order in which they are substituted. -/
def all : List Entity := [less, greater, quote, apostrophe, ampersand]

end Entity

/-- Substitutes every entity for its character, one entity after the other. -/
def unescape (raw : List Char) : List Char :=
  Entity.all.foldl (fun cs e => Text.replaceAll e.spelling [e.char] cs) raw

end FormWeaver.Form
