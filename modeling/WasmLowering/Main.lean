import WasmLowering.Command.Plan

/-! The command line. -/

namespace WasmLowering

def usage : String :=
  "Usage: wasm-lowering [flags] <module.wasm>\n" ++
    "  -o file            C source to write (default: input name with .c)\n" ++
    "  -header file       header, written next to the source (default: input name with .h)\n" ++
    "  -runtime-dir dir   also write the support library into this directory\n" ++
    "  -list              list functions and their types, write nothing\n"

def parseArguments (settings : Settings) : List String → Option Settings
  | "-o" :: path :: rest => parseArguments { settings with output := path } rest
  | "-header" :: path :: rest => parseArguments { settings with header := path } rest
  | "-runtime-dir" :: path :: rest =>
      parseArguments { settings with supportDirectory := path } rest
  | "-list" :: rest => parseArguments { settings with list := true } rest
  | "-i" :: rest => parseArguments { settings with interactive := true } rest
  | [input] => some { settings with input }
  | _ => none

def fileError : IO.Error → FileError
  | .noFileOrDirectory .. => .missing
  | .alreadyExists .. => .taken
  | .inappropriateType _ number _ => if number = 21 then .isDirectory else .notDirectory
  | .invalidArgument _ number _ => if number = 36 then .nameTooLong else .invalid
  | _ => .isDirectory

def attempt {result : Type} (operation path : String) (action : IO result) :
    IO (Except FileFailure result) := do
  match ← action.toBaseIO with
  | .ok value => return .ok value
  | .error error => return .error ⟨operation, path, fileError error⟩

def performAll (failure : Option Failure) : List Action → IO (Option Failure)
  | [] => return failure
  | .print text :: rest => do
      IO.print text
      performAll failure rest
  | .write path content purpose :: rest => do
      match ← attempt "open" path (IO.FS.writeFile path content) with
      | .ok _ => performAll failure rest
      | .error fault => return some (fault.report path purpose)
  | .makeDirectories path purpose :: rest => do
      match ← attempt "mkdir" path (IO.FS.createDirAll path) with
      | .ok _ => performAll failure rest
      | .error fault => return some (fault.report path purpose)

end WasmLowering

open WasmLowering in
def main (arguments : List String) : IO UInt32 := do
  match parseArguments { input := "" } arguments with
  | none =>
      IO.eprint usage
      return 1
  | some settings =>
      let input ← attempt "open" settings.input (IO.FS.readBinFile settings.input)
      let plan := settings.plan (input.map (·.data.toList))
      match ← performAll plan.failure plan.actions with
      | none => return 0
      | some failure =>
          IO.eprintln ("Error: " ++ failure.message)
          return 1
