/-!
# What the operating system refuses

Each reason for which a file operation or the start of a process fails is a constructor of
`SystemError`; `SystemError.message` is the one place that words them.
-/

namespace FormWeaver

/-- A reason for which the operating system refuses an operation. -/
inductive SystemError where
  /-- Nothing has this name. -/
  | notFound
  /-- The arguments of a process take more room than the system allows. -/
  | argumentsTooLong
  /-- A file that may not be executed. -/
  | permissionDenied
  /-- The device is in use, as the working directory is while it is renamed. -/
  | busy
  /-- Something has this name already. -/
  | alreadyExists
  /-- A path leads through something that is not a directory. -/
  | notADirectory
  /-- A directory stands where a file is needed. -/
  | isADirectory
  /-- A name or a path is longer than the system allows. -/
  | nameTooLong
  /-- A path leads through more symbolic links than the system follows. -/
  | tooManyLinks
  /-- The empty path has no absolute form. -/
  | emptyPath
  /-- A file name holds a NUL character. -/
  | nulInName
  /-- The name or an argument of a process holds a NUL character. -/
  | nulInArgument
  | notText
  /-- A copy's source is not a regular file. -/
  | notAFile
  /-- No directory on the way could be created. -/
  | noTree
  deriving DecidableEq, Repr

/-- The wording of a refusal. -/
def SystemError.message : SystemError → String
  | .notFound => "No such file or directory (os error 2)"
  | .argumentsTooLong => "Argument list too long (os error 7)"
  | .permissionDenied => "Permission denied (os error 13)"
  | .busy => "Device or resource busy (os error 16)"
  | .alreadyExists => "File exists (os error 17)"
  | .notADirectory => "Not a directory (os error 20)"
  | .isADirectory => "Is a directory (os error 21)"
  | .nameTooLong => "File name too long (os error 36)"
  | .tooManyLinks => "Too many levels of symbolic links (os error 40)"
  | .emptyPath => "cannot make an empty path absolute"
  | .nulInName => "file name contained an unexpected NUL byte"
  | .nulInArgument => "nul byte found in provided data"
  | .notText => "stream did not contain valid UTF-8"
  | .notAFile => "the source path is neither a regular file nor a symlink to a regular file"
  | .noTree => "failed to create whole tree"

end FormWeaver
