import FormWeaver.Text.Cut

/-!
# Paths

A path is kept as it was spelled, because spellings reach messages, reports and the tool's
arguments. What a path *means* is its list of components: repeated slashes, a trailing slash and
inner `.` pieces are spelling only. Two paths are `same` when their components agree, and every
relation between paths (beneath, relative to, extension) is decided on components.

A path is a text. Names of files that are not UTF-8 are left out, although the program takes them: a URL
and a message show such a path with replacement characters, and a report that holds one cannot be
printed, so that the command fails.
-/

namespace FormWeaver

/-- A path as it was spelled. -/
structure Path where
  text : String
  deriving DecidableEq, Repr, Inhabited

namespace Path

/-- One step of a path. -/
inductive Component where
  | root
  /-- A `.` at the beginning of a relative path. -/
  | current
  | parent
  | name (n : String)
  deriving DecidableEq, Repr

/-- The spelling of a component. -/
def Component.text : Component → String
  | .root => "/"
  | .current => "."
  | .parent => ".."
  | .name n => n

/-- Whether the path begins with a slash. -/
def isAbsolute (p : Path) : Bool := p.text.toList.head? == some '/'

/-- Whether the spelling ends with a slash. -/
def hasTrailingSlash (p : Path) : Bool := p.text.toList.getLast? == some '/'

/-- The pieces between the slashes; there is always at least one. -/
def pieces (p : Path) : List String := (p.text.toList.splitOn '/').map String.ofList

/-- The component a piece stands for, when it is not the first of a relative path. -/
def Component.ofPiece? (piece : String) : Option Component :=
  if piece = "" then none
  else if piece = "." then none
  else if piece = ".." then some .parent
  else some (.name piece)

/-- The component the first piece of a relative path stands for. -/
def Component.ofFirstPiece? (piece : String) : Option Component :=
  if piece = "." then some .current else ofPiece? piece

/-- What the path means. -/
def components (p : Path) : List Component :=
  match p.pieces with
  | [] => []
  | first :: rest =>
    let tail := rest.filterMap Component.ofPiece?
    if p.isAbsolute then .root :: tail else (Component.ofFirstPiece? first).toList ++ tail

/-- Whether two paths mean the same. -/
def same (p q : Path) : Bool := p.components == q.components

/-- Whether `p` lies at or beneath `base`, component by component. -/
def isBeneath (p base : Path) : Bool := base.components.isPrefixOf p.components

/-- The path behind `p` that `q` spells: an absolute `q` stands for itself, any other is set
behind `p` with one slash between them. -/
def join (p q : Path) : Path :=
  if q.isAbsolute then q
  else if p.text.isEmpty || p.hasTrailingSlash then ⟨p.text ++ q.text⟩
  else ⟨p.text ++ "/" ++ q.text⟩

/-- `join` with a spelling. -/
def child (p : Path) (piece : String) : Path := p.join ⟨piece⟩

/-- The path that spells the given components. -/
def ofComponents (cs : List Component) : Path := cs.foldl (fun p c => p.child c.text) ⟨""⟩

/-- What leads from `base` to `p`, when `p` lies at or beneath `base`. -/
def relativeTo? (p base : Path) : Option Path :=
  (base.components.isPrefixOf? p.components).map ofComponents

/-- The last component, when it is a name. -/
def fileName? (p : Path) : Option String :=
  match p.components.getLast? with
  | some (.name n) => some n
  | _ => none

/-- What stands behind the last dot of a name. A name that has no dot, or only its first
character, has no extension. -/
def extensionOfName? (n : String) : Option String :=
  match n.toList.reverse.span (· != '.') with
  | (_, []) => none
  | (_, [_]) => none
  | (after, _ :: _ :: _) => some (String.ofList after.reverse)

/-- The extension of the file name. -/
def extension? (p : Path) : Option String := p.fileName?.bind extensionOfName?

/-- Drops the pieces at the end that stand for no component. -/
def dropIdle (ps : List String) : List String :=
  (ps.reverse.dropWhile fun piece => (Component.ofPiece? piece).isNone).reverse

/-- The path without its last component; the root and the empty path have none. -/
def parent? (p : Path) : Option Path :=
  match p.pieces with
  | [] => none
  | first :: rest =>
    let kept := dropIdle rest
    let above := dropIdle kept.dropLast
    if p.isAbsolute then
      if kept.isEmpty then none else some ⟨"/" ++ Text.joinWith "/" above⟩
    else if kept.isEmpty then
      if first = "" then none else some ⟨""⟩
    else some ⟨Text.joinWith "/" (first :: above)⟩

/-- The absolute path that `p` spells when the working directory is `base`. Nothing is looked up:
`..` stays, a `.` at the beginning goes, exactly two leading slashes are kept, and so is a slash
at the end. -/
def anchoredAt (base p : Path) : Path :=
  let steps := match p.components with
    | .current :: rest => rest
    | cs => cs
  let (start, steps) :=
    if p.isAbsolute then
      let slashes := p.text.toList.takeWhile (· == '/')
      if slashes.length = 2 then ((⟨"//"⟩ : Path), steps.tail) else (⟨""⟩, steps)
    else (base, steps)
  let whole := steps.foldl (fun q c => q.child c.text) start
  if p.hasTrailingSlash then whole.child "" else whole

end Path
end FormWeaver
