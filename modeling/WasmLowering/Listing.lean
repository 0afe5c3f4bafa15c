import WasmLowering.Module

/-! A listing of the functions of a module with their types, and where they come
from or go to. -/

namespace WasmLowering.Module

def exportedFuncs (module : Module) : List (String × String) :=
  module.exports.filterMap fun entry =>
    if entry.kind = .func then
      (module.func? entry.target).map fun func => (func.name, entry.name)
    else none

def listingNote (module : Module) (position : Nat) (func : Func) : String :=
  if position < module.importCount .func then
    match (module.importsOf .func)[position]? with
    | some entry =>
        " import " ++ Text.quoted entry.moduleName ++ " " ++ Text.quoted entry.fieldName
    | none => ""
  else
    match (module.exportedFuncs.filter (·.1 = func.name)).map (·.2) with
    | [] => ""
    | names => " export " ++ ", ".intercalate names

def listing (module : Module) : String :=
  "Functions:\n" ++ String.join (module.funcs.zipIdx.map fun (func, position) =>
    "  " ++ func.name ++ " " ++ func.declaration.signature.text ++
      module.listingNote position func ++ "\n")

end WasmLowering.Module
