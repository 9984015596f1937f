/-!
# Bindings

Names with their values, in the order in which the names were first bound.  Binding a name again
changes its value and not its place.
-/

namespace PuzzleLang

/-- Names with their values, in the order in which they were first bound. -/
abbrev Bindings (α : Type) := List (String × α)

namespace Bindings

variable {α : Type}

/-- The value of a name. -/
def get? : Bindings α → String → Option α
  | [], _ => none
  | (name, value) :: later, wanted =>
    if name == wanted then some value else get? later wanted

/-- Binds a name: in its place if it is bound already, otherwise at the end. -/
def put : Bindings α → String → α → Bindings α
  | [], wanted, new => [(wanted, new)]
  | (name, value) :: later, wanted, new =>
    if name == wanted then (name, new) :: later else (name, value) :: put later wanted new

/-- The names, in order. -/
def names (bindings : Bindings α) : List String :=
  bindings.map Prod.fst

/-- Whether a name is bound. -/
def binds (bindings : Bindings α) (name : String) : Bool :=
  (bindings.get? name).isSome

/-- Binds the names of a list of pairs, one after the other. -/
def putAll (bindings : Bindings α) (pairs : List (String × α)) : Bindings α :=
  pairs.foldl (fun bindings pair => bindings.put pair.1 pair.2) bindings

end Bindings

end PuzzleLang
