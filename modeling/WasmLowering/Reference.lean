import WasmLowering.Text.Quoted

/-! References to the entities of a module. A decoded module refers to everything
by position; naming replaces the positions by names. -/

namespace WasmLowering

abbrev Index := UInt32

/-- The largest position marks a missing entity and never refers to one. -/
def Index.missing : Index := 0xFFFFFFFF

inductive Reference where
  | index (position : Index)
  | name (text : String)
  deriving DecidableEq, Repr, Inhabited

namespace Reference

def isIndex : Reference → Bool
  | index _ => true
  | name _ => false

def isName : Reference → Bool
  | index _ => false
  | name _ => true

def text : Reference → String
  | index position => toString position.toNat
  | name text => text

def position : Reference → Except String Index
  | index position => .ok position
  | name text => .error ("ir: Index called on named var " ++ Text.quoted text)

def label : Reference → Except String String
  | index position => .error ("ir: Name called on index var " ++ toString position.toNat)
  | name text => .ok text

end Reference

end WasmLowering
