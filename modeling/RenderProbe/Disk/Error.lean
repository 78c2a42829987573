import RenderProbe.Path
import RenderProbe.Text.Quoted

/-!
# File system errors

Why the file system refuses an operation, and how messages name it.
-/

namespace RenderProbe

/-- Why the file system refused an operation. -/
inductive FileError where
  | notFound
  | isDirectory
  | notDirectory
  | nameTooLong
  | linkLoop
  | busy
  /-- Every name that was tried for a temporary file is taken. -/
  | noFreeName
  /-- The bytes of a file are no text. -/
  | undecodable
  deriving DecidableEq, Inhabited

namespace FileError

def className : FileError → String
  | notFound => "FileNotFoundError"
  | isDirectory => "IsADirectoryError"
  | notDirectory => "NotADirectoryError"
  | nameTooLong => "OSError"
  | linkLoop => "OSError"
  | busy => "OSError"
  | noFreeName => "FileExistsError"
  | undecodable => "UnicodeDecodeError"

def reason : FileError → String
  | notFound => "[Errno 2] No such file or directory"
  | isDirectory => "[Errno 21] Is a directory"
  | notDirectory => "[Errno 20] Not a directory"
  | nameTooLong => "[Errno 36] File name too long"
  | linkLoop => "[Errno 40] Too many levels of symbolic links"
  | busy => "[Errno 16] Device or resource busy"
  | noFreeName => "[Errno 17] No usable temporary file name found"
  | undecodable => "not UTF-8"

def message (error : FileError) (path : Path) : String :=
  s!"{error.reason}: {Text.quoted path.toText}"

end FileError

end RenderProbe
