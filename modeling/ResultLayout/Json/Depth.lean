import ResultLayout.FirstSeen
import ResultLayout.Json.Record
/-!
# Readers that know how deeply they stand

The readers here are told how many containers may still be opened, one inside the other.
-/
namespace ResultLayout.Reader

/-- What a container gets for its items: nothing if it may not be opened. -/
def inside {α : Type} (item : Nat → α) : (depth : Nat) → Option α
  | 0 => none
  | depth + 1 => some (item depth)

def listAt {α : Type} (item : Nat → Reader α) (depth : Nat) : Reader (List α) :=
  .list "a sequence" (inside item depth)

def textsAt (depth : Nat) : Reader (List String) := listAt (fun _ => text) depth

/-- Reads an array of texts of which each counts once. -/
def textSetAt (depth : Nat) : Reader (List String) :=
  (Reader.list "a set" (inside (fun _ => text) depth)).map firstSeen

def recordAt {α : Type} (name : String) (format : Nat → RecordFormat α) (depth : Nat) : Reader α :=
  .record name (inside format depth)

end ResultLayout.Reader
