import WasmLowering.Command.Plan
import WasmLowering.Proofs.Lowering.Parts
import WasmLowering.Proofs.Symbols.Identifiers
import WasmLowering.Proofs.Text.PrintedLines

/-! Include guards.

A header has its guard in three places. All characters of a guard can stand in an identifier, and
all but digits can start one: a guard is no identifier where the name of the header starts with a
digit. -/

namespace WasmLowering

namespace C

open WasmLowering.Symbol (isIdentifier startsIdentifier continuesIdentifier isDigit)

/-! ## Guards -/

theorem continuesIdentifier_guardChar (byte : UInt8) :
    continuesIdentifier (guardChar byte) = true := by
  have all : ∀ byte : UInt8, continuesIdentifier (guardChar byte) = true := by decide +kernel
  exact all byte

theorem startsIdentifier_guardChar (byte : UInt8) :
    startsIdentifier (guardChar byte) = !isDigit byte := by
  have all : ∀ byte : UInt8, startsIdentifier (guardChar byte) = !isDigit byte := by decide +kernel
  exact all byte

theorem isIdentifier_guard_iff (fileName : List UInt8) :
    isIdentifier (guard fileName) = true ↔ ∀ first ∈ fileName.head?, isDigit first = false := by
  cases fileName with
  | nil => exact iff_of_true (by decide) (by simp)
  | cons first rest =>
      have continues :
          (rest.map guardChar ++ "_GENERATED_".toList).all continuesIdentifier = true := by
        rw [List.all_append, List.all_map, Bool.and_eq_true, List.all_eq_true]
        exact ⟨fun byte _ => continuesIdentifier_guardChar byte, by decide⟩
      have isGuard : (guard (first :: rest)).toList =
          guardChar first :: (rest.map guardChar ++ "_GENERATED_".toList) := by
        simp [guard]
      rw [isIdentifier, isGuard]
      dsimp only
      rw [continues, Bool.and_true, startsIdentifier_guardChar]
      simp

/-! ## Headers -/

def Guarded (header guard : String) : Prop :=
  ∃ content, header = "#ifndef " ++ guard ++ "\n" ++ "#define " ++ guard ++ "\n" ++ content ++
    "#endif  /* " ++ guard ++ " */\n"

namespace Printer

theorem writeAll_text {printer : Printer} (flat : printer.indent = 0) (texts : List String) :
    (printer.writeAll texts).text = printer.text ++ String.join texts := by
  induction texts generalizing printer with
  | nil => simp [writeAll]
  | cons text rest induction =>
      have written := (Continues.refl printer).write text
      have isText : (printer.write text).text = printer.text ++ text := by
        unfold write
        split
        · next isEmpty => rw [isEmpty, String.append_empty]
        · have noMargin : printer.margin = "" := by
            rw [margin, flat]
            split <;> rfl
          rw [put, noMargin, String.append_empty]
      rw [writeAll, List.foldl_cons]
      refine (induction (written.indent.trans flat)).trans ?_
      rw [isText]
      simp [String.append_assoc]

theorem line_text {printer : Printer} (flat : printer.indent = 0) (texts : List String) :
    (printer.line texts).text = printer.text ++ String.join texts ++ "\n" :=
  congrArg (· ++ "\n") (writeAll_text flat texts)

end Printer

open Printer in
theorem Program.header_guarded (program : Program) (fileName : String) :
    Guarded (program.header fileName) (guard (Text.bytes fileName)) := by
  unfold header
  dsimp only
  generalize guard (Text.bytes fileName) = guard
  have opened := ((Continues.refl ({} : Printer)).line ["#ifndef ", guard]).line ["#define ", guard]
  have first := line_text (rfl : ({} : Printer).indent = 0) ["#ifndef ", guard]
  have second := line_text ((Continues.refl ({} : Printer)).line ["#ifndef ", guard]).indent
    ["#define ", guard]
  generalize (({} : Printer).line ["#ifndef ", guard]).line ["#define ", guard] = top at *
  have written := (((((Continues.refl top).newline.verbatim headerTop).imports
    program.imports).exports "extern " program.exports).newline.verbatim headerBottom).newline
  rcases written.text with ⟨content, isText⟩
  refine ⟨content, (line_text (written.indent.trans opened.indent) _).trans ?_⟩
  have ending : " */\n" = " */" ++ "\n" := rfl
  rw [isText, second, first, ending]
  simp [-String.reduceAppend, String.append_assoc]

end C

/-! ## Names of headers -/

theorem CompileOptions.headerName_ne_empty (options : CompileOptions) :
    options.withDefaults.headerName ≠ "" := by
  unfold withDefaults
  dsimp only
  split
  · intro empty
    exact absurd (String.append_eq_empty_iff.mp empty).2 (by decide)
  · assumption

theorem compile_eq_ok {bytes : List UInt8} {options : CompileOptions} {compiled : Compiled}
    (compiles : compile bytes options = .ok compiled) :
    ∃ module : Module, module.compile options = .ok compiled := by
  unfold compile at compiles
  split at compiles
  · cases compiles
  · rcases bind_eq_ok compiles with ⟨module, _, isCompiled⟩
    exact ⟨_, isCompiled⟩

/-- A header that is written without a name has the name of a module without one. -/
theorem Module.write_guarded {module : Module} {headerName : String} {output : Output}
    (written : module.write headerName = .ok output) :
    C.Guarded output.header (C.guard (Text.bytes
      (if headerName = "" then headerNameOf defaultModuleName else headerName))) := by
  rcases bind_eq_ok written with ⟨program, -, isOutput⟩
  cases isOutput
  exact program.header_guarded _

theorem Module.compile_guarded {module : Module} {options : CompileOptions} {compiled : Compiled}
    (compiles : module.compile options = .ok compiled) :
    compiled.headerName = options.withDefaults.headerName ∧
      C.Guarded compiled.output.header (C.guard (Text.bytes compiled.headerName)) := by
  rcases compile_eq_ok compiles with ⟨-, isName, program, -, isOutput⟩
  refine ⟨isName, ?_⟩
  have named : compiled.headerName ≠ "" := isName ▸ options.headerName_ne_empty
  rw [isOutput, C.Program.output]
  dsimp only
  rw [if_neg named]
  exact program.header_guarded compiled.headerName

def Settings.headerName (settings : Settings) : String :=
  if settings.header = "" then
    headerNameOf (if Text.Path.stem settings.input = "" then defaultModuleName
      else Text.Path.stem settings.input)
  else settings.header

theorem Settings.headerName_eq (settings : Settings) :
    (⟨settings.header, settings.moduleName⟩ : CompileOptions).withDefaults.headerName =
      settings.headerName := rfl

/-- Every header stands between the lines of one guard, which its name determines, and that guard
is an identifier exactly if the name does not start with a digit. The name comes from the options,
which the command fills in from its settings and the path of its input, and has a default where they
leave it empty. -/
theorem include_guards (fileName : List UInt8) (headerName : String) (options : CompileOptions)
    (settings : Settings) :
    (Symbol.isIdentifier (C.guard fileName) = true ↔
      ∀ first ∈ fileName.head?, Symbol.isDigit first = false) ∧
    (∀ (module : Module) (output : Output),
      module.write headerName = .ok output → C.Guarded output.header (C.guard (Text.bytes
        (if headerName = "" then headerNameOf defaultModuleName else headerName)))) ∧
    (∀ (module : Module) (compiled : Compiled),
      module.compile options = .ok compiled →
        compiled.headerName = options.withDefaults.headerName ∧
        C.Guarded compiled.output.header (C.guard (Text.bytes compiled.headerName))) ∧
    (∀ (bytes : List UInt8) (compiled : Compiled),
      compile bytes options = .ok compiled →
        compiled.headerName = options.withDefaults.headerName ∧
        C.Guarded compiled.output.header (C.guard (Text.bytes compiled.headerName))) ∧
    ∀ (bytes : List UInt8) (compiled : Compiled),
      compile bytes ⟨settings.header, settings.moduleName⟩ = .ok compiled →
        settings.list = false → settings.interactive = false →
          (settings.plan (.ok bytes)).actions.head? = some (.write
            (Text.Path.join [Text.Path.directory settings.sourcePath, settings.headerName])
            compiled.output.header "write output") ∧
          C.Guarded compiled.output.header (C.guard (Text.bytes settings.headerName)) := by
  have ofBytes : ∀ (bytes : List UInt8) (options : CompileOptions) (compiled : Compiled),
      compile bytes options = .ok compiled →
        compiled.headerName = options.withDefaults.headerName ∧
        C.Guarded compiled.output.header (C.guard (Text.bytes compiled.headerName)) := by
    intro bytes options compiled compiles
    rcases compile_eq_ok compiles with ⟨module, isCompiled⟩
    exact Module.compile_guarded isCompiled
  refine ⟨C.isIdentifier_guard_iff fileName, fun _ _ => Module.write_guarded,
    fun _ _ => Module.compile_guarded, fun bytes => ofBytes bytes options, ?_⟩
  intro bytes compiled compiles noList noTerminal
  rcases ofBytes bytes _ compiled compiles with ⟨isName, guarded⟩
  rw [isName, settings.headerName_eq] at guarded
  refine ⟨?_, guarded⟩
  unfold Settings.plan
  dsimp only
  rw [compiles, ← settings.headerName_eq, ← isName]
  dsimp only
  rw [Settings.planCompiled, noList, noTerminal]
  rfl

def emptyModule : List UInt8 := [0x00, 0x61, 0x73, 0x6D, 0x01, 0x00, 0x00, 0x00]

theorem include_guards_hyphen : ∃ compiled,
    compile emptyModule ⟨"", Text.Path.stem "demo/my-mod.wasm"⟩ = .ok compiled ∧
      C.Guarded compiled.output.header "MY_MOD_H_GENERATED_" ∧
      Symbol.isIdentifier "MY_MOD_H_GENERATED_" = true := by
  rcases exists_of_run (compile emptyModule ⟨"", Text.Path.stem "demo/my-mod.wasm"⟩)
    (fun _ => ()) () (by decide +kernel) with ⟨compiled, compiles, -⟩
  have isName : Settings.headerName { input := "demo/my-mod.wasm" } = "my-mod.h" := by
    decide +kernel
  have isGuard : C.guard (Text.bytes "my-mod.h") = "MY_MOD_H_GENERATED_" := by decide +kernel
  rcases include_guards (Text.bytes "my-mod.h") "my-mod.h" {} { input := "demo/my-mod.wasm" } with
    ⟨identifier, -, -, -, commanded⟩
  rcases commanded emptyModule compiled compiles rfl rfl with ⟨-, guarded⟩
  rw [isName, isGuard] at guarded
  rw [isGuard] at identifier
  exact ⟨compiled, compiles, guarded, identifier.mpr (by decide +kernel)⟩

/-- The header of a module from a file whose name starts with a digit has a guard that is not an
identifier. -/
theorem include_guard_digit : ∃ compiled,
    compile emptyModule ⟨"", Text.Path.stem "2d.wasm"⟩ = .ok compiled ∧
      compiled.headerName = "2d.h" ∧ C.Guarded compiled.output.header "2D_H_GENERATED_" ∧
      Symbol.isIdentifier "2D_H_GENERATED_" = false := by
  rcases exists_of_run (compile emptyModule ⟨"", Text.Path.stem "2d.wasm"⟩)
    (fun _ => ()) () (by decide +kernel) with ⟨compiled, compiles, -⟩
  rcases compile_eq_ok compiles with ⟨module, isCompiled⟩
  rcases Module.compile_guarded isCompiled with ⟨isName, guarded⟩
  have isDefault : (⟨"", Text.Path.stem "2d.wasm"⟩ : CompileOptions).withDefaults.headerName =
      "2d.h" := by
    decide +kernel
  have isGuard : C.guard (Text.bytes "2d.h") = "2D_H_GENERATED_" := by decide +kernel
  rw [isName, isDefault, isGuard] at guarded
  exact ⟨compiled, compiles, isName.trans isDefault, guarded, by decide⟩

end WasmLowering
