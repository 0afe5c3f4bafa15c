import WasmLowering.C.Comment
import WasmLowering.C.FunctionText
import WasmLowering.C.Preamble
import WasmLowering.C.Program

/-! The text of headers and sources. -/

namespace WasmLowering.C

/-! The include guard of a header is made from its file name. -/

def guardChar (byte : UInt8) : Char :=
  if Symbol.isLetter byte then (Char.ofUInt8 byte).toUpper
  else if Symbol.isDigit byte then Char.ofUInt8 byte
  else '_'

def guard (fileName : List UInt8) : String :=
  String.ofList (fileName.map guardChar) ++ "_GENERATED_"

example : guard (Text.bytes "a-2.h") = "A_2_H_GENERATED_" := by decide

def ObjectType.declare (type : ObjectType) (name : String) : String :=
  match type with
  | func prototype => prototype.declare name
  | number type => type.cName ++ " " ++ name
  | memory => "wasm_rt_memory_t " ++ name
  | table => "wasm_rt_table_t " ++ name

def ImportedObject.declaration (object : ImportedObject) : String :=
  object.type.declare (External.dereference object.symbol) ++ ";"

def ExportedObject.declaration (object : ExportedObject) : String :=
  object.type.declare (External.dereference (Symbol.prefixed object.symbol)) ++ ";"

def Initial.text : Initial → String
  | .literal value => C.literal value
  | .global external => external.value

namespace Printer

def gap {item : Type} (printer : Printer) (items : List item) : Printer :=
  if items.isEmpty then printer else printer.newline

def each {item : Type} (printer : Printer) (items : List item) (one : Printer → item → Printer) :
    Printer :=
  items.foldl one printer

def procedure (printer : Printer) (head : String) (body : Printer → Printer) : Printer :=
  (body (printer.newline.writeAll [head, "(void) "]).openBrace).closeBrace.newline

def setup (printer : Printer) (name : String) (body : Printer → Printer) : Printer :=
  printer.procedure ("static void " ++ name) body

def importComment (printer : Printer) (entry : Import) : Printer :=
  printer.line
    ["/* import: '", comment entry.moduleName, "' '", comment entry.fieldName, "' */"]

def exportComment (printer : Printer) (name : String) : Printer :=
  printer.line ["/* export: '", comment name, "' */"]

def imports (printer : Printer) (objects : List ImportedObject) : Printer :=
  (printer.gap objects).each objects fun printer object =>
    (printer.importComment object.entry).line ["extern ", object.declaration]

def exports (printer : Printer) (storage : String) (objects : List ExportedObject) : Printer :=
  (printer.gap objects).each objects fun printer object =>
    (printer.exportComment object.name).line [storage, object.declaration]

def typeEntries (printer : Printer) (number : Nat) : List (List Scalar × List Scalar) → Printer
  | [] => printer
  | (params, results) :: rest =>
      let tags := (params ++ results).map fun type => ", " ++ type.tag
      (printer.line (["func_types[", toString number, "] = wasm_rt_register_func_type(",
        toString params.length, ", ", toString results.length] ++ tags ++ [");"])).typeEntries
        (number + 1) rest

def types (printer : Printer) (types : List (List Scalar × List Scalar)) : Printer :=
  (printer.newline.line
    ["static u32 func_types[", toString (max types.length 1), "];"]).setup "init_func_types"
    (·.typeEntries 0 types)

def globals (printer : Printer) (program : Program) : Printer :=
  let declared := (printer.gap program.globals).each program.globals fun printer (symbol, type) =>
    printer.line ["static ", type.cName, " ", symbol, ";"]
  declared.setup "init_globals" fun printer =>
    printer.each program.globalValues fun printer (symbol, value) =>
      printer.line [symbol, " = ", value.text, ";"]

def objects (printer : Printer) (type : ObjectType) (symbols : List String) : Printer :=
  (printer.gap symbols).each symbols fun printer symbol =>
    printer.line ["static ", type.declare symbol, ";"]

def bytesPerLine : Nat := 12

def bytes (printer : Printer) (number : Nat) : List UInt8 → Printer
  | [] => if number % bytesPerLine = 0 then printer else printer.newline
  | byte :: rest =>
      let printer := printer.writeAll ["0x", Text.hex 2 byte.toNat, ", "]
      let printer := if (number + 1) % bytesPerLine = 0 then printer.newline else printer
      printer.bytes (number + 1) rest

def dataArray (printer : Printer) (array : DataArray) : Printer :=
  (((printer.newline.writeAll ["static const u8 ", array.symbol, "[] = "]).openBrace.bytes 0
    array.bytes).closeBrace).line [";"]

def allocation (printer : Printer) (function : String) : Option Allocation → Printer
  | none => printer
  | some allocation =>
      printer.line [function, "(", allocation.external.pointer, ", ",
        toString allocation.initial.toNat, ", ", toString allocation.maximum.toNat, ");"]

def dataCopy (printer : Printer) (copy : DataCopy) : Printer :=
  let offset := copy.offset.text
  let length := toString copy.source.bytes.length
  let checked := printer.line ["if (UNLIKELY((u64)(", offset, ") + ", length, " > ",
    copy.memory.value, ".size)) TRAP(OOB);"]
  checked.line ["memcpy(&(", copy.memory.value, ".data[", offset, "]), ", copy.source.symbol, ", ",
    length, ");"]

def datas (printer : Printer) (program : Program) : Printer :=
  (printer.each program.dataArrays dataArray).setup "init_memory" fun printer =>
    (printer.allocation "wasm_rt_allocate_memory" program.memoryAllocation).each program.dataCopies
      dataCopy

def elements (printer : Printer) (table : External) (number : Nat) : List Element → Printer
  | [] => printer
  | element :: rest =>
      (printer.line [table.value, ".data[offset + ", toString number,
        "] = (wasm_rt_elem_t)\x7bfunc_types[", toString element.typeIndex.toNat,
        "], (wasm_rt_anyfunc_t)", element.func.pointer, "\x7d;"]).elements table (number + 1) rest

def elementCopy (printer : Printer) (copy : ElementCopy) : Printer :=
  let placed := printer.line ["offset = ", copy.offset.text, ";"]
  let checked := placed.line ["if (UNLIKELY((u64)offset + ", toString copy.elements.length, " > ",
    copy.table.value, ".size)) TRAP(OOB);"]
  checked.elements copy.table 0 copy.elements

def table (printer : Printer) (program : Program) : Printer :=
  printer.setup "init_table" fun printer =>
    let printer :=
      if program.elementCopies.isEmpty then printer else printer.line ["u32 offset;"]
    (printer.allocation "wasm_rt_allocate_table" program.tableAllocation).each program.elementCopies
      elementCopy

def exportValues (printer : Printer) (program : Program) : Printer :=
  printer.setup "init_exports" fun printer =>
    printer.each (program.exports.zip program.exportTargets) fun printer (object, target) =>
      (printer.exportComment object.name).line
        [Symbol.prefixed object.symbol, " = ", target.pointer, ";"]

def start (printer : Printer) (starts : List External) : Printer :=
  printer.procedure ("void " ++ Symbol.prefixed "init") fun printer =>
    let steps := ["init_func_types", "init_globals", "init_memory", "init_table", "init_exports"]
    (printer.each steps fun printer step => printer.line [step, "();"]).each starts
      fun printer func => printer.line [func.value, "();"]

end Printer

namespace Program

def header (program : Program) (fileName : String) : String :=
  let guard := guard (Text.bytes fileName)
  let printer := (({} : Printer).line ["#ifndef ", guard]).line ["#define ", guard]
  let printer := ((printer.newline.verbatim headerTop).imports program.imports).exports "extern "
    program.exports
  let printer := (printer.newline.verbatim headerBottom).newline
  (printer.line ["#endif  /* ", guard, " */"]).text

def functionTexts (program : Program) : List String :=
  program.functions.map (·.text program.taken)

def source (program : Program) (fileName : String) : String :=
  let printer := (({} : Printer).verbatim includes).newline
  let printer := ((printer.line ["#include \"", fileName, "\""]).newline.verbatim helpers)
  let printer := printer.types program.types
  let printer := (printer.gap program.prototypes).each program.prototypes
    fun printer (symbol, prototype) => printer.line ["static ", prototype.declare symbol, ";"]
  let printer := (printer.globals program).objects .memory program.memories
  let printer := printer.objects .table program.tables
  let printer := (printer.datas program).table program
  let printer := printer.each program.functionTexts
    fun printer text => (printer.newline.verbatim text).newline
  (((printer.exports "" program.exports).exportValues program).start program.starts).text

end Program

end WasmLowering.C
