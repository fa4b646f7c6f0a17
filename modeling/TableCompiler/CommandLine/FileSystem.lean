/-!
# Files

The commands read and write files through a small interface, so that they run on the files of a
machine as well as on a directory that is held in memory.

* `FileFault` — why a file cannot be read or written;
* `FileSystem` — reading, writing and appending.
-/

namespace TableCompiler

/-- Why a file cannot be read or written. -/
inductive FileFault where
  | missing
  | notDirectory
  | isDirectory
  | nameTooLong
  | notText
  | other (message : String)
deriving DecidableEq

namespace FileFault

def message : FileFault → String
  | .missing => "No such file or directory (os error 2)"
  | .notDirectory => "Not a directory (os error 20)"
  | .isDirectory => "Is a directory (os error 21)"
  | .nameTooLong => "File name too long (os error 36)"
  | .notText => "stream did not contain valid UTF-8"
  | .other message => message

end FileFault

/-- Access to files by name. -/
structure FileSystem (m : Type → Type) where
  read : String → m (Except FileFault String)
  /-- Writes a file, in place of one that is there. -/
  write : String → String → m (Except FileFault Unit)
  /-- Writes a text at the end of a file, which need not be there. -/
  append : String → String → m (Except FileFault Unit)

end TableCompiler
