/-!
# Allocation of names

An allocator hands out each name once. A name that is taken gets the smallest positive number behind
it that makes it free: `User`, `User1`, `User2`. The search for that number tries as many numbers as
there are taken names; by then one candidate must have been free.
-/
namespace ResultLayout

structure NameAllocator where
  taken : List String := []
deriving DecidableEq, Repr

namespace NameAllocator

def isTaken (names : NameAllocator) (name : String) : Bool := names.taken.contains name

/-- Takes a name without handing it out. -/
def reserve (names : NameAllocator) (name : String) : NameAllocator :=
  if names.isTaken name then names else ⟨name :: names.taken⟩

def numbered (base : String) (k : Nat) : String := base ++ toString k

/-- The first candidate from number `k` on that is free, or the one that `tries` numbers further on
is left. -/
def firstFree (names : NameAllocator) (base : String) : (tries : Nat) → (k : Nat) → String
  | 0, k => numbered base k
  | tries + 1, k =>
    if names.isTaken (numbered base k) then names.firstFree base tries (k + 1)
    else numbered base k

/-- The name that `allocate` gives for `base`. -/
def fresh (names : NameAllocator) (base : String) : String :=
  if names.isTaken base then names.firstFree base names.taken.length 1 else base

def allocate (names : NameAllocator) (base : String) : String × NameAllocator :=
  (names.fresh base, names.reserve (names.fresh base))

end NameAllocator
end ResultLayout
