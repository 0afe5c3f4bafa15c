import WasmLowering.Binary.Leb128

/-! Assembling binary modules from a sketch of their sections. A sketch gives raw
bytes for value types and for instructions, so it can describe modules that are
not valid too. Sections with nothing in them are left out. -/

namespace WasmLowering.Binary

structure TypeSketch where
  params : List UInt8 := []
  results : List UInt8 := []

structure ImportSketch where
  moduleName : String := ""
  fieldName : String := ""
  type : UInt32 := 0

structure FuncSketch where
  type : UInt32 := 0
  locals : List UInt8 := []
  body : List UInt8 := []

structure LimitsSketch where
  minimum : UInt32 := 0
  maximum : Option UInt32 := none

structure GlobalSketch where
  type : UInt8 := 0
  isMutable : Bool := false
  initial : List UInt8 := []

structure ExportSketch where
  name : String := ""
  kind : UInt8 := 0
  position : UInt32 := 0

structure ElementSketch where
  offset : UInt32 := 0
  functions : List UInt32 := []

structure DataSketch where
  offset : UInt32 := 0
  bytes : List UInt8 := []

structure ModuleSketch where
  types : List TypeSketch := []
  imports : List ImportSketch := []
  funcs : List FuncSketch := []
  table : Option LimitsSketch := none
  memory : Option LimitsSketch := none
  globals : List GlobalSketch := []
  exports : List ExportSketch := []
  start : Option UInt32 := none
  elements : List ElementSketch := []
  datas : List DataSketch := []
  funcNames : List (UInt32 × String) := []
  localNames : List (UInt32 × List (UInt32 × String)) := []

namespace Encode

def length {α : Type} (items : List α) : List UInt8 :=
  encodeU32 (.ofNat items.length)

def vector (bytes : List UInt8) : List UInt8 :=
  length bytes ++ bytes

def name (text : String) : List UInt8 :=
  vector text.toUTF8.toList

def framed (id : UInt8) (contents : List UInt8) : List UInt8 :=
  id :: vector contents

def list {α : Type} (item : α → List UInt8) (items : List α) : List UInt8 :=
  length items ++ items.flatMap item

def listSection {α : Type} (id : UInt8) (item : α → List UInt8) (items : List α) : List UInt8 :=
  if items.isEmpty then [] else framed id (list item items)

def optionSection {α : Type} (id : UInt8) (contents : α → List UInt8) : Option α → List UInt8
  | some value => framed id (contents value)
  | none => []

/-! Instructions. -/

def i32Const (value : Int32) : List UInt8 := 0x41 :: encodeS64 value.toInt64
def i64Const (value : Int64) : List UInt8 := 0x42 :: encodeS64 value

def littleEndian : (count : Nat) → Nat → List UInt8
  | 0, _ => []
  | count + 1, value => .ofNat (value % 256) :: littleEndian count (value / 256)

def f32Const (bits : UInt32) : List UInt8 := 0x43 :: littleEndian 4 bits.toNat
def f64Const (bits : UInt64) : List UInt8 := 0x44 :: littleEndian 8 bits.toNat

def finish : UInt8 := 0x0B

/-! Contents of the sections. -/

def type (sketch : TypeSketch) : List UInt8 :=
  0x60 :: (vector sketch.params ++ vector sketch.results)

def importEntry (sketch : ImportSketch) : List UInt8 :=
  name sketch.moduleName ++ name sketch.fieldName ++ 0 :: encodeU32 sketch.type

def limits (sketch : LimitsSketch) : List UInt8 :=
  match sketch.maximum with
  | none => 0 :: encodeU32 sketch.minimum
  | some maximum => 1 :: (encodeU32 sketch.minimum ++ encodeU32 maximum)

def global (sketch : GlobalSketch) : List UInt8 :=
  sketch.type :: (if sketch.isMutable then 1 else 0) :: (sketch.initial ++ [finish])

def exportEntry (sketch : ExportSketch) : List UInt8 :=
  name sketch.name ++ sketch.kind :: encodeU32 sketch.position

def offset (value : UInt32) : List UInt8 :=
  i32Const value.toInt32 ++ [finish]

def element (sketch : ElementSketch) : List UInt8 :=
  0 :: (offset sketch.offset ++ list encodeU32 sketch.functions)

def code (sketch : FuncSketch) : List UInt8 :=
  vector (list (fun type => [1, type]) sketch.locals ++ sketch.body ++ [finish])

def data (sketch : DataSketch) : List UInt8 :=
  0 :: (offset sketch.offset ++ vector sketch.bytes)

/-! Names are written in the order of their positions. -/

def sorted {α : Type} (entries : List (UInt32 × α)) : List (UInt32 × α) :=
  entries.mergeSort fun left right => left.1 ≤ right.1

def nameMap (names : List (UInt32 × String)) : List UInt8 :=
  list (fun (position, text) => encodeU32 position ++ name text) (sorted names)

def slotNames (names : List (UInt32 × List (UInt32 × String))) : List UInt8 :=
  list (fun (position, slots) => encodeU32 position ++ nameMap slots) (sorted names)

def nameSection (sketch : ModuleSketch) : List UInt8 :=
  if sketch.funcNames.isEmpty && sketch.localNames.isEmpty then []
  else
    framed 0 (name "name" ++
      (if sketch.funcNames.isEmpty then [] else framed 1 (nameMap sketch.funcNames)) ++
      if sketch.localNames.isEmpty then [] else framed 2 (slotNames sketch.localNames))

def header : List UInt8 := [0x00, 0x61, 0x73, 0x6D, 0x01, 0x00, 0x00, 0x00]

end Encode

open Encode in
def encode (sketch : ModuleSketch) : List UInt8 :=
  header ++
    listSection 1 type sketch.types ++
    listSection 2 importEntry sketch.imports ++
    listSection 3 (fun func => encodeU32 func.type) sketch.funcs ++
    optionSection 4 (fun table => 1 :: 0x70 :: limits table) sketch.table ++
    optionSection 5 (fun memory => 1 :: limits memory) sketch.memory ++
    listSection 6 global sketch.globals ++
    listSection 7 exportEntry sketch.exports ++
    optionSection 8 encodeU32 sketch.start ++
    listSection 9 element sketch.elements ++
    listSection 10 code sketch.funcs ++
    listSection 11 data sketch.datas ++
    nameSection sketch

example : encode { start := some 300 } = Encode.header ++ [8, 2, 0xAC, 0x02] := by decide

end WasmLowering.Binary
