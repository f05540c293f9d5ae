/-!
# Source locations

A location is as fine as a file: a document records only the path that an operation or a fragment
was read from, and the empty path when it does not know.
-/
namespace ResultLayout

inductive SourceLocation where
  | file (path : String)
  | unknown
deriving DecidableEq, Repr

namespace SourceLocation

def ofPath (path : String) : SourceLocation := if path = "" then .unknown else .file path

def path? : SourceLocation → Option String
  | file path => some path
  | unknown => none

def render : SourceLocation → String
  | file path => path
  | unknown => "<unknown location>"

end SourceLocation
end ResultLayout
