import PuzzleLang.Bindings
import PuzzleLang.Value.Datum

/-!
# The store

The store holds the scopes, arrays and maps of a session.  Each has a place of its own that is never
given up; a scope keeps the parent it was made with.
-/

namespace PuzzleLang

/-- A scope: the scope around it, if any, and its own bindings. -/
structure Scope where
  parent : Option ScopeId
  bindings : Bindings Value

/-- The scopes, arrays and maps of a session. -/
structure Store where
  scopes : Array Scope
  arrays : Array (Array Value)
  maps : Array (Bindings Value)

/-- A place in an array or a map that can be written. -/
inductive Slot
  | item (id : ArrayId) (index : Nat)
  | entry (id : MapId) (key : String)
deriving DecidableEq, Repr

namespace Store

/-- The store that holds nothing. -/
def empty : Store :=
  ⟨#[], #[], #[]⟩

/-! ## Scopes -/

/-- The scope at a place. -/
def scope? (store : Store) (id : ScopeId) : Option Scope :=
  store.scopes[id.index]?

/-- The bindings of a scope, without those around it. -/
def own (store : Store) (id : ScopeId) : Bindings Value :=
  match store.scope? id with
  | some scope => scope.bindings
  | none => []

/-- Makes a scope without bindings inside another one. -/
def newScope (store : Store) (parent : Option ScopeId) : ScopeId × Store :=
  (⟨store.scopes.size⟩, { store with scopes := store.scopes.push ⟨parent, []⟩ })

/-- Binds a name in a scope. -/
def define (store : Store) (id : ScopeId) (name : String) (value : Value) : Store :=
  { store with
    scopes := store.scopes.modify id.index fun scope =>
      { scope with bindings := scope.bindings.put name value } }

/-- Binds the names of a list of pairs in a scope, one after the other. -/
def defineAll (store : Store) (id : ScopeId) (pairs : List (String × Value)) : Store :=
  { store with
    scopes := store.scopes.modify id.index fun scope =>
      { scope with bindings := scope.bindings.putAll pairs } }

/-- The nearest scope that binds a name, from a scope outwards.  A parent is older than the scopes
inside it. -/
def home? (store : Store) (name : String) (id : ScopeId) : Option ScopeId :=
  match store.scope? id with
  | none => none
  | some scope =>
    if scope.bindings.binds name then some id
    else
      match scope.parent with
      | none => none
      | some parent => if parent.index < id.index then store.home? name parent else none
termination_by id.index

/-- The value of a name in a scope or around it. -/
def lookup? (store : Store) (id : ScopeId) (name : String) : Option Value :=
  match store.home? name id with
  | some home => (store.own home).get? name
  | none => none

/-- Gives a name a new value in the nearest scope that binds it, and tells whether there is
one. -/
def assign (store : Store) (id : ScopeId) (name : String) (value : Value) : Bool × Store :=
  match store.home? name id with
  | some home => (true, store.define home name value)
  | none => (false, store)

/-! ## Arrays and maps -/

/-- The items of an array. -/
def items (store : Store) (id : ArrayId) : Array Value :=
  store.arrays.getD id.index #[]

/-- The entries of a map. -/
def entries (store : Store) (id : MapId) : Bindings Value :=
  store.maps.getD id.index []

/-- Makes an array. -/
def newArray (store : Store) (items : Array Value) : Value × Store :=
  (.array ⟨store.arrays.size⟩, { store with arrays := store.arrays.push items })

/-- Makes a map. -/
def newMap (store : Store) (entries : Bindings Value) : Value × Store :=
  (.map ⟨store.maps.size⟩, { store with maps := store.maps.push entries })

/-- Writes an item of an array. -/
def setItem (store : Store) (id : ArrayId) (index : Nat) (value : Value) : Store :=
  { store with arrays := store.arrays.modify id.index fun items => items.setIfInBounds index value }

/-- Writes an entry of a map. -/
def setEntry (store : Store) (id : MapId) (key : String) (value : Value) : Store :=
  { store with maps := store.maps.modify id.index fun entries => entries.put key value }

/-- The place that a number names among `size` ones. -/
def index? (index : Int) (size : Nat) : Except Cause Nat :=
  if 0 ≤ index ∧ index < size then .ok index.toNat else .error (.indexOutOfRange index)

/-- Reads a subscript.  A map has nil under every key that it does not bind. -/
def load (store : Store) (container key : Value) : Except Cause Value :=
  match container, key with
  | .array id, .number index => do
    let items := store.items id
    let place ← index? index items.size
    return items.getD place .nil
  | .string text, .number index => do
    let place ← index? index text.length
    return .string (String.ofList (text.toList.drop place |>.take 1))
  | .map id, key =>
    match key.mapKey? with
    | some key => .ok (((store.entries id).get? key).getD .nil)
    | none => .error (.cannotSubscript .map key.type)
  | container, key => .error (.cannotSubscript container.type key.type)

/-- The slot that a subscript names for writing. -/
def slot (store : Store) (container key : Value) : Except Cause Slot :=
  match container, key with
  | .array id, .number index => do
    let place ← index? index (store.items id).size
    return .item id place
  | .map id, key =>
    match key.mapKey? with
    | some key => .ok (.entry id key)
    | none => .error (.cannotStore .map key.type)
  | container, key => .error (.cannotStore container.type key.type)

/-- Writes a slot. -/
def write (store : Store) (slot : Slot) (value : Value) : Store :=
  match slot with
  | .item id index => store.setItem id index value
  | .entry id key => store.setEntry id key value

/-- Writes a subscript. -/
def save (store : Store) (container key value : Value) : Except Cause Store := do
  let slot ← store.slot container key
  return store.write slot value

/-! ## Values written out -/

/-- Writes a value out through at most `depth` levels of arrays and maps. -/
def viewWithin (store : Store) : (depth : Nat) → Value → Option Datum
  | _, .nil => some .nil
  | _, .number value => some (.number value)
  | _, .string value => some (.string value)
  | _, .range range => some (.range range)
  | _, .native native => some (.native native.name)
  | _, .closure ⟨f, _⟩ => some (.function f.displayName f.params)
  | 0, .array _ => none
  | 0, .map _ => none
  | depth + 1, .array id => do
    let items ← (store.items id).toList.mapM (store.viewWithin depth)
    return .array items
  | depth + 1, .map id => do
    let entries ← (store.entries id).mapM fun entry => do
      let value ← store.viewWithin depth entry.2
      return (entry.1, value)
    return .map entries

/-- Writes a value out, unless it contains itself: a value that does not is no deeper than the
number of arrays and maps there are. -/
def view? (store : Store) (value : Value) : Option Datum :=
  store.viewWithin (store.arrays.size + store.maps.size) value

/-- The text of a value, with strings in quotes. -/
def render? (store : Store) (value : Value) : Option String :=
  (store.view? value).map Datum.render

/-- The text of a value as it is printed. -/
def text? (store : Store) (value : Value) : Option String :=
  (store.view? value).map Datum.text

mutual

/-- Makes a value from its written-out form.  A function has an empty body. -/
def build (store : Store) : Datum → Value × Store
  | .nil => (.nil, store)
  | .number value => (.number value, store)
  | .string value => (.string value, store)
  | .range range => (.range range, store)
  | .native name => (.native ((Native.ofName? name).getD (.evaluate name "")), store)
  | .function name params => (.closure ⟨⟨0, some name, params, ⟨0, []⟩⟩, ⟨0⟩⟩, store)
  | .array items =>
    let (values, store) := buildAll store items
    store.newArray values.toArray
  | .map entries =>
    let (bindings, store) := buildEntries store entries
    store.newMap (Bindings.putAll [] bindings)

/-- Makes the values of a list, from left to right. -/
def buildAll (store : Store) : List Datum → List Value × Store
  | [] => ([], store)
  | item :: items =>
    let (value, store) := build store item
    let (values, store) := buildAll store items
    (value :: values, store)

/-- Makes the values of a list of entries, from left to right. -/
def buildEntries (store : Store) : List (String × Datum) → List (String × Value) × Store
  | [] => ([], store)
  | (key, item) :: entries =>
    let (value, store) := build store item
    let (bindings, store) := buildEntries store entries
    ((key, value) :: bindings, store)

end

end Store

end PuzzleLang
