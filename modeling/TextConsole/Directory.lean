/-!
# Directories in memory

A directory that exists only as a list of files, in place of the current
directory of a running program. Paths are resolved from it step by step, where
empty steps and single dots lead nowhere. An absolute path leaves the directory,
and a path that ends with such a step names no file.
-/

namespace TextConsole

/-- Files with their paths. -/
structure Directory where
  files : List (String × ByteArray) := []

namespace Directory

/-- Whether a step of a path stays where it is. -/
def isIdleStep (step : List Char) : Bool := step = [] || step = ['.']

/-- The steps of a path to a file. -/
def steps? (path : String) : Option (List (List Char)) :=
  let steps := path.toList.splitOn '/'
  if steps.head? = some [] then none
  else if (steps.getLast?.map isIdleStep).getD true then none
  else some (steps.filter fun step => !isIdleStep step)

def read? (d : Directory) (path : String) : Option ByteArray := do
  let steps ← steps? path
  let file ← d.files.find? fun f => steps? f.1 = some steps
  return file.2

end Directory

end TextConsole
