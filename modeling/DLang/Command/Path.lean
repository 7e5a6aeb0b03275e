/-!
# Paths

A path names a file by its components, separated by slashes.  `components` is the way it is
followed, and `withExtension` is how the name of an output is made from that of its source.
-/

namespace DLang.Path

/-- The components of a path in order.  Slashes in a row separate like one. -/
def components (path : String) : List String :=
  ((path.toList.splitOn '/').map String.ofList).filter (· ≠ "")

/-- A path that starts at the root. -/
def isAbsolute (path : String) : Bool :=
  path.toList.head? = some '/'

/-- A path that ends in a slash can only lead to a directory. -/
def endsInSlash (path : String) : Bool :=
  path.toList.getLast? = some '/'

/-- The part of a file name before its last dot.  A name without a dot has no extension, and
neither has one whose only dot is its first character. -/
def stem (name : List Char) : List Char :=
  match name.reverse.dropWhile (· ≠ '.') with
  | '.' :: before => if before = [] then name else before.reverse
  | _ => name

/-- A path with the extension of its file name replaced, or added if it has none.  A name such as
`..x` without its extension is `..`, which names a directory, and a directory takes no extension.

A path that ends in a slash has no file name here, so the extension stands alone after the slash.
No source is ever read at such a path, and so none is written at what becomes of it. -/
def withExtension (path extension : String) : String :=
  let name := (path.toList.reverse.takeWhile (· ≠ '/')).reverse
  let parent := path.toList.take (path.toList.length - name.length)
  let base := String.ofList (parent ++ stem name ++ ['.'])
  if stem name = ['.'] then base else base ++ extension

end DLang.Path
