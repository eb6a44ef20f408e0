import FormWeaver.Disk.Basic

/-!
# Where a path leads

Following a path takes one piece after another from a directory: an empty piece and `.` stay, `..`
goes up, a name enters what the directory holds under it. A symbolic link on the way is replaced
by its target; the last piece's link is followed only on request. The walk ends at a node, or at a
*gap*: an existing directory in which the last name is free. A gap is where something new can be
made. A working directory that has been removed holds nothing and has no gaps, so all that leads out
of it is `..`.

Resolving a path to its canonical form takes the same steps, but asks for the whole path so far at each
name. It fails where that is too long, however short the path is that was given.
-/

namespace FormWeaver.Disk

/-- Where a walk ends. -/
inductive Found where
  | node (place : Place) (n : Node)
  /-- At a free name in an existing directory; `slash` tells that the path named a directory by
  ending in a slash. -/
  | gap (directory : Place) (name : String) (slash : Bool)
  /-- At the working directory, which has been removed. -/
  | removed
  deriving DecidableEq

/-- The pieces between the slashes of a spelling. -/
def piecesOf (text : String) : List String := (text.toList.splitOn '/').map String.ofList

/-- The longest name a directory can hold, in bytes. -/
def maxName : Nat := 255

/-- The bytes from which on a path is too long. -/
def maxPath : Nat := 4096

/-- The number of symbolic links that one walk follows. -/
def maxLinks : Nat := 40

/-- Walks the pieces from directory `here`. `onLink` goes on from a directory where the target's
pieces and the remaining ones are still to be walked; `follow` asks to follow a link that the last
piece names. -/
def walkPieces (d : Disk) (follow : Bool) (onLink : Place → List String → Except SystemError Found) :
    Place → List String → Except SystemError Found
  | here, [] => .ok (.node here .directory)
  | here, piece :: rest =>
    if piece = "" || piece = "." then walkPieces d follow onLink here rest
    else if piece = ".." then walkPieces d follow onLink here.dropLast rest
    else if maxName < piece.utf8ByteSize then .error .nameTooLong
    else
      let there := here ++ [piece]
      match d.node? there with
      | none =>
        if rest.all (· == "") then .ok (.gap here piece !rest.isEmpty) else .error .notFound
      | some .directory => walkPieces d follow onLink there rest
      | some (.file bytes modified) =>
        if rest.isEmpty then .ok (.node there (.file bytes modified)) else .error .notADirectory
      | some (.link target) =>
        if rest.isEmpty && !follow then .ok (.node there (.link target))
        else if target.isEmpty then .error .notFound
        else onLink (if (Path.mk target).isAbsolute then [] else here) (piecesOf target ++ rest)

/-- Walks the pieces from directory `here`, through at most the given number of links. -/
def walkFrom (d : Disk) (follow : Bool) : Nat → Place → List String → Except SystemError Found
  | 0 => walkPieces d follow fun _ _ => .error .tooManyLinks
  | links + 1 => walkPieces d follow (walkFrom d follow links)

/-- Walks the pieces from a working directory that has been removed from `parent`. -/
def walkRemoved (d : Disk) (follow : Bool) (parent : Place) : List String → Except SystemError Found
  | [] => .ok .removed
  | piece :: rest =>
    if piece = "" || piece = "." then walkRemoved d follow parent rest
    else if piece = ".." then walkFrom d follow maxLinks parent rest
    else .error .notFound

/-- Where a path leads. -/
def walk (d : Disk) (follow : Bool) (p : Path) : Except SystemError Found :=
  if p.text.toList.contains '\x00' then .error .nulInName
  else if p.text.isEmpty then .error .notFound
  else if maxPath ≤ p.text.utf8ByteSize then .error .nameTooLong
  else if p.isAbsolute then walkFrom d follow maxLinks [] (piecesOf p.text)
  else match d.workingDirectory with
    | .present here => walkFrom d follow maxLinks here (piecesOf p.text)
    | .removed parent => walkRemoved d follow parent (piecesOf p.text)

/-- The node a path leads to, its last link followed, with the node's place. -/
def follow? (d : Disk) (p : Path) : Option (Place × Node) :=
  match d.walk true p with
  | .ok (.node place n) => some (place, n)
  | _ => none

/-! ## Canonical paths -/

/-- The bytes of the path that spells a place. -/
def pathSize : Place → Nat
  | [] => 0
  | name :: rest => name.utf8ByteSize + 1 + pathSize rest

/-- Whether what follows a name asks for a directory, in that it ends with a slash or a dot, or goes up. -/
def asksForDirectory (rest : List String) : Bool :=
  !rest.isEmpty && (rest.find? fun piece => piece != "" && piece != ".").all (· == "..")

/-- Resolves the pieces from directory `here`. What is asked for is the path so far, with a slash at its
end where a directory is asked for. -/
def resolvePieces (d : Disk) (onLink : Place → List String → Option Place) :
    Place → List String → Option Place
  | here, [] => some here
  | here, piece :: rest =>
    if piece = "" || piece = "." then resolvePieces d onLink here rest
    else if piece = ".." then resolvePieces d onLink here.dropLast rest
    else
      let there := here ++ [piece]
      if maxName < piece.utf8ByteSize || maxPath ≤ pathSize there then none
      else match d.node? there with
        | none => none
        | some .directory =>
          if asksForDirectory rest && maxPath ≤ pathSize there + 1 then none
          else resolvePieces d onLink there rest
        | some (.file _ _) => if rest.isEmpty then some there else none
        | some (.link target) =>
          if target.isEmpty then none
          else onLink (if (Path.mk target).isAbsolute then [] else here) (piecesOf target ++ rest)

/-- Resolves the pieces from directory `here`, through at most the given number of links. -/
def resolveFrom (d : Disk) : Nat → Place → List String → Option Place
  | 0 => resolvePieces d fun _ _ => none
  | links + 1 => resolvePieces d (resolveFrom d links)

/-- The place that a path is resolved to. From a working directory that has been removed, which has no
path of its own, nothing is resolved. -/
def canonical? (d : Disk) (p : Path) : Option Place :=
  if p.text.toList.contains '\x00' || p.text.isEmpty then none
  else if p.isAbsolute then resolveFrom d maxLinks [] (piecesOf p.text)
  else match d.workingDirectory with
    | .present here => resolveFrom d maxLinks here (piecesOf p.text)
    | .removed _ => none

end FormWeaver.Disk
