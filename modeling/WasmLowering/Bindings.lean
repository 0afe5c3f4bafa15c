import Std.Data.ExtTreeMap
import WasmLowering.Reference

/-! Bindings map names to positions of one index space. A name has at most one
position, but several names may share one; the reverse view then shows the least
of them. -/

namespace WasmLowering

structure Bindings where
  entries : Std.ExtTreeMap String Index compare

namespace Bindings

def empty : Bindings := ⟨∅⟩

instance : Inhabited Bindings := ⟨empty⟩
instance : EmptyCollection Bindings := ⟨empty⟩

def put (bindings : Bindings) (name : String) (position : Index) : Bindings :=
  ⟨bindings.entries.insert name position⟩

def find? (bindings : Bindings) (name : String) : Option Index :=
  bindings.entries[name]?

def has (bindings : Bindings) (name : String) : Bool :=
  bindings.entries.contains name

def size (bindings : Bindings) : Nat :=
  bindings.entries.size

def putAll (bindings : Bindings) (pairs : List (String × Index)) : Bindings :=
  pairs.foldl (fun bindings (name, position) => bindings.put name position) bindings

/-- Enters a name at its position unless an earlier, and hence smaller, one is
there already. -/
def fillSlot (slots : Array String) (entry : String × Index) : Array String :=
  slots.modify entry.2.toNat fun current => if current = "" then entry.1 else current

/-- For every position below `count` the least non-empty name bound to it, or the
empty text. The entries come in increasing order of their names. -/
def reverse (bindings : Bindings) (count : Nat) : List String :=
  (bindings.entries.toList.foldl fillSlot (Array.replicate count "")).toList

@[ext] theorem ext {left right : Bindings}
    (same : ∀ name, left.find? name = right.find? name) : left = right := by
  cases left
  cases right
  congr
  exact Std.ExtTreeMap.ext_getElem? same

theorem has_eq_isSome (bindings : Bindings) (name : String) :
    bindings.has name = (bindings.find? name).isSome :=
  Std.ExtTreeMap.contains_eq_isSome_getElem?

@[simp] theorem find?_put_self (bindings : Bindings) (name : String) (position : Index) :
    (bindings.put name position).find? name = some position := by
  simp [put, find?]

theorem find?_put (bindings : Bindings) (name other : String) (position : Index) :
    (bindings.put name position).find? other =
      if name = other then some position else bindings.find? other := by
  simp [put, find?, Std.ExtTreeMap.getElem?_insert]

example : ((empty.put "$b" 0).put "$a" 0).reverse 2 = ["$a", ""] := by decide

end Bindings

end WasmLowering
