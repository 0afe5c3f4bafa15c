import WasmLowering.Binary.Decode
import WasmLowering.C.ProgramText
import WasmLowering.Emission.Emit
import WasmLowering.Naming.Apply
import WasmLowering.TextFormat

/-! Compiling modules to C. -/

namespace WasmLowering

def defaultModuleName : String := "module"

def headerNameOf (moduleName : String) : String := moduleName ++ ".h"

structure CompileOptions where
  headerName : String := ""
  moduleName : String := ""
  deriving DecidableEq, Repr, Inhabited

def CompileOptions.withDefaults (options : CompileOptions) : CompileOptions :=
  let moduleName := if options.moduleName = "" then defaultModuleName else options.moduleName
  let headerName := if options.headerName = "" then headerNameOf moduleName else options.headerName
  ⟨headerName, moduleName⟩

structure FunctionOutput where
  name : String
  symbol : String
  text : String
  deriving DecidableEq, Repr, Inhabited

structure Output where
  header : String
  source : String
  functions : List FunctionOutput
  deriving Repr, Inhabited

def C.Program.output (program : C.Program) (headerName : String) : Output :=
  let fileName := if headerName = "" then headerNameOf defaultModuleName else headerName
  { header := program.header fileName
    source := program.source fileName
    functions := program.functions.map fun function =>
      ⟨function.name, function.symbol, function.text program.taken⟩ }

def Module.write (module : Module) (headerName : String) : Except EmitError Output := do
  return (← module.emit).output headerName

inductive CompileError where
  | text (error : TextFormat.TextError)
  | decode (error : Binary.DecodeError)
  | apply (error : Naming.ApplyError)
  | emit (error : EmitError)

def CompileError.toFailure : CompileError → Failure
  | text error => error.toFailure
  | decode error => error.toReport
  | apply error => error.toFailure
  | emit error => error.toFailure

structure Compiled where
  module : Module
  headerName : String
  output : Output

def Module.compile (module : Module) (options : CompileOptions) :
    Except CompileError Compiled := do
  let headerName := options.withDefaults.headerName
  let named ← module.resolve.applyNames.mapError .apply
  let output ← (named.write headerName).mapError .emit
  return ⟨named, headerName, output⟩

def compile (bytes : List UInt8) (options : CompileOptions) : Except CompileError Compiled := do
  if TextFormat.isText bytes then
    throw (.text (TextFormat.refusal bytes))
  else
    let module ← (Binary.decode bytes).mapError .decode
    let name := if module.name = "" then options.withDefaults.moduleName else module.name
    { module with name }.compile options

end WasmLowering
