/-!
# Keyed lists

A finite map as a list of keys with their values, in increasing order of the keys. `put` keeps the
order, so reading the list front to back visits the keys in order. What the list holds at a key is
`get?`.
-/

namespace ComputeKernel

/-- A list of keys with their values. -/
abbrev Keyed (κ α : Type) := List (κ × α)

namespace Keyed

variable {κ α : Type}

/-- What the list holds at a key. -/
def get? [BEq κ] (m : Keyed κ α) (k : κ) : Option α := m.lookup k

/-- The keys in order. -/
def keys (m : Keyed κ α) : List κ := m.map (·.1)

/-- Set the value at a key. -/
def put [LT κ] [DecidableLT κ] (m : Keyed κ α) (k : κ) (a : α) : Keyed κ α :=
  match m with
  | [] => [(k, a)]
  | (k', a') :: rest =>
    if k < k' then (k, a) :: (k', a') :: rest
    else if k' < k then (k', a') :: put rest k a
    else (k, a) :: rest

/-- Leave a key out. -/
def erase [BEq κ] (m : Keyed κ α) (k : κ) : Keyed κ α := m.filter fun (k', _) => k' != k

/-- Whether the list holds something at a key. -/
def has [BEq κ] (m : Keyed κ α) (k : κ) : Bool := (get? m k).isSome

end Keyed

end ComputeKernel
