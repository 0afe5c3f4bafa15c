import WasmLowering.C.Support
import WasmLowering.Command.FileTree
import WasmLowering.Compile
import WasmLowering.Listing

/-! The command: it reads a module and either lists its functions or writes its C
code next to it. What is to be done is a list of actions, so that it can be told
before anything is done. -/

namespace WasmLowering

structure Settings where
  input : String
  /-- The source to write; by default the input with another extension. -/
  output : String := ""
  header : String := ""
  /-- Where to write the support library, if anywhere. -/
  supportDirectory : String := ""
  list : Bool := false
  interactive : Bool := false
  deriving Repr

inductive Action where
  | print (text : String)
  | write (path content purpose : String)
  | makeDirectories (path purpose : String)

structure Plan where
  actions : List Action
  failure : Option Failure := none

namespace Settings

def inputFailure (settings : Settings) (failure : FileFailure) : Failure :=
  let cause := some (.plain failure.text)
  match failure.error with
  | .missing => .notFound .input "input file" settings.input cause
  | _ => .report .input .invalidInput [settings.input] "read input" cause

def moduleName (settings : Settings) : String := Text.Path.stem settings.input

def sourcePath (settings : Settings) : String :=
  if settings.output = "" then
    Text.Path.join [Text.Path.directory settings.input, settings.moduleName ++ ".c"]
  else settings.output

def wrote (path : String) : Action := .print ("wrote " ++ path ++ "\n")

def outputActions (settings : Settings) (compiled : Compiled) : List Action :=
  let source := settings.sourcePath
  let header := Text.Path.join [Text.Path.directory source, compiled.headerName]
  [.write header compiled.output.header "write output", wrote header,
    .write source compiled.output.source "write output", wrote source]

def supportActions (settings : Settings) : List Action :=
  let directory := settings.supportDirectory
  if directory = "" then []
  else
    let header := Text.Path.join [directory, C.supportHeaderName]
    let source := Text.Path.join [directory, C.supportSourceName]
    [.makeDirectories directory "create runtime directory",
      .write header C.supportHeader "write runtime file",
      .write source C.supportSource "write runtime file", wrote header, wrote source]

def summary (module : Module) : String :=
  toString module.funcs.length ++ " functions, " ++ toString module.imports.length ++
    " imports, " ++ toString module.exports.length ++ " exports\n"

def planCompiled (settings : Settings) (compiled : Compiled) : Plan :=
  if settings.list then ⟨[.print compiled.module.listing], none⟩
  else if settings.interactive then
    ⟨[], some (.invalidInput .output "interactive mode needs a terminal")⟩
  else
    ⟨settings.outputActions compiled ++ settings.supportActions ++
      [.print (summary compiled.module)], none⟩

def plan (settings : Settings) (input : Except FileFailure (List UInt8)) : Plan :=
  match input with
  | .error failure => ⟨[], some (settings.inputFailure failure)⟩
  | .ok bytes =>
      match compile bytes ⟨settings.header, settings.moduleName⟩ with
      | .error error => ⟨[], some error.toFailure⟩
      | .ok compiled => settings.planCompiled compiled

end Settings

def FileFailure.report (failure : FileFailure) (path purpose : String) : Failure :=
  .report .output .invalidInput [path] purpose (some (.plain failure.text))

structure Ending where
  printed : String
  tree : FileTree
  failure : Option Failure

namespace Plan

def perform (actions : List Action) (failure : Option Failure) (printed : String)
    (tree : FileTree) : Ending :=
  match actions with
  | [] => ⟨printed, tree, failure⟩
  | .print text :: rest => perform rest failure (printed ++ text) tree
  | .write path content purpose :: rest =>
      match tree.write path (Text.bytes content) with
      | .ok tree => perform rest failure printed tree
      | .error fault => ⟨printed, tree, some (fault.report path purpose)⟩
  | .makeDirectories path purpose :: rest =>
      match tree.makeDirectories path with
      | .ok tree => perform rest failure printed tree
      | .error fault => ⟨printed, tree, some (fault.report path purpose)⟩

end Plan

def Settings.run (settings : Settings) (tree : FileTree) : Ending :=
  let plan := settings.plan (tree.read settings.input)
  Plan.perform plan.actions plan.failure "" tree

end WasmLowering
