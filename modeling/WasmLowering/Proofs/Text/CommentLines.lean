import WasmLowering.Proofs.Symbols.HeaderDeclarations
import WasmLowering.Proofs.Symbols.Hygiene
import WasmLowering.Proofs.Text.EscapedNames
import WasmLowering.Proofs.Text.PrintedLines

/-! The comments that name imports and exports.

Each is a line of its own in the header or the source, and ends where the line does. So nothing in
a name is read as code. -/

namespace WasmLowering.C

/-! ## The lines -/

def importLine (entry : Import) : String :=
  "/* import: '" ++ comment entry.moduleName ++ "' '" ++ comment entry.fieldName ++ "' */"

def exportLine (name : String) : String := "/* export: '" ++ comment name ++ "' */"

def ClosesAtEnd (line : String) : Prop :=
  (∃ before, line = before ++ "*/") ∧
    ∀ before behind, line = before ++ "*/" ++ behind → behind = ""

instance : DecidableRel StayOpen := fun first second =>
  inferInstanceAs (Decidable (first = '*' → second ≠ '/'))

theorem closesAtEnd_of_isChain {line : String} {most : List Char}
    (isLine : line.toList = most ++ ['*', '/']) (chain : (most ++ ['*']).IsChain StayOpen) :
    ClosesAtEnd line := by
  refine ⟨⟨String.ofList most, ?_⟩, fun before behind isOther => ?_⟩
  · rw [← String.toList_inj, isLine, String.toList_append, String.toList_ofList]
    rfl
  · by_contra given
    rw [isOther] at isLine
    simp only [String.toList_append] at isLine
    rcases List.eq_nil_or_concat behind.toList with none | ⟨rest, last, isBehind⟩
    · exact given (String.toList_eq_nil_iff.mp none)
    · -- The line without its last character holds the end of a comment already.
      have ends : (before.toList ++ ['*', '/'] ++ rest) ++ [last] = (most ++ ['*']) ++ ['/'] := by
        rw [isBehind, List.concat_eq_append] at isLine
        simpa using isLine
      have isMost := (List.append_inj' ends rfl).1
      exact not_infix_of_isChain chain ⟨before.toList, rest, isMost⟩

theorem isChain_append_quote {front rest : List Char} (first : front.IsChain StayOpen)
    (second : ('\'' :: rest).IsChain StayOpen) : (front ++ '\'' :: rest).IsChain StayOpen := by
  refine List.isChain_append.mpr ⟨first, second, fun _ _ char isQuote => ?_⟩
  cases isQuote
  exact fun _ => by decide

theorem isChain_quoted (text : String) {behind : List Char}
    (chain : ('\'' :: behind).IsChain StayOpen) :
    ('\'' :: ((comment text).toList ++ '\'' :: behind)).IsChain StayOpen := by
  have name : ('\'' :: (comment text).toList).IsChain StayOpen := by
    rw [comment, String.toList_ofList]
    exact isChain_commentChars (by decide) text.toList
  exact isChain_append_quote name chain

theorem isChain_indented (depth : Nat) {chars : List Char} (chain : chars.IsChain StayOpen) :
    ((spaces depth).toList ++ chars).IsChain StayOpen := by
  rw [spaces, String.toList_ofList]
  induction depth with
  | zero => exact chain
  | succ depth induction =>
      exact List.isChain_cons.mpr ⟨fun _ _ star => absurd star (by decide), induction⟩

theorem importLine_closes (depth : Nat) (entry : Import) :
    ClosesAtEnd (spaces depth ++ importLine entry) := by
  have field := isChain_quoted entry.fieldName (show ['\'', ' ', '*'].IsChain StayOpen by decide)
  have names := isChain_quoted entry.moduleName (isChain_append_quote
    (show ['\'', ' '].IsChain StayOpen by decide) field)
  have all := isChain_append_quote (show "/* import: ".toList.IsChain StayOpen by decide) names
  apply closesAtEnd_of_isChain _ _
  · exact (spaces depth).toList ++ "/* import: '".toList ++ (comment entry.moduleName).toList ++
      "' '".toList ++ (comment entry.fieldName).toList ++ "' ".toList
  · unfold importLine
    simp
  · simpa using isChain_indented depth all

theorem exportLine_closes (depth : Nat) (name : String) :
    ClosesAtEnd (spaces depth ++ exportLine name) := by
  have quoted := isChain_quoted name (show ['\'', ' ', '*'].IsChain StayOpen by decide)
  have all := isChain_append_quote (show "/* export: ".toList.IsChain StayOpen by decide) quoted
  apply closesAtEnd_of_isChain _ _
  · exact (spaces depth).toList ++ "/* export: '".toList ++ (comment name).toList ++ "' ".toList
  · unfold exportLine
    simp
  · simpa using isChain_indented depth all

theorem newline_not_mem_comment (text : String) : '\n' ∉ (comment text).toList := by
  intro member
  rw [comment, String.toList_ofList] at member
  exact absurd (commentChars_plain none text.toList '\n' member).1 (by decide)

theorem newline_not_mem_importLine (entry : Import) : '\n' ∉ (importLine entry).toList := by
  unfold importLine
  simp [newline_not_mem_comment]

theorem newline_not_mem_exportLine (name : String) : '\n' ∉ (exportLine name).toList := by
  unfold exportLine
  simp [newline_not_mem_comment]

/-! ## Where they are written -/

namespace Printer

variable {printer : Printer} {depth : Nat}

theorem lines_importComment (atLine : printer.AtLine depth) (entry : Import) :
    lines (printer.importComment entry).text =
      lines printer.text ++ [spaces depth ++ importLine entry] := by
  have isLine : "/* import: '" ++ String.join
      [comment entry.moduleName, "' '", comment entry.fieldName, "' */"] = importLine entry := by
    unfold importLine
    simp [String.append_assoc]
  have written := lines_line atLine (show "/* import: '" ≠ "" by decide) _
    (isLine ▸ newline_not_mem_importLine entry)
  rwa [isLine] at written

theorem lines_exportComment (atLine : printer.AtLine depth) (name : String) :
    lines (printer.exportComment name).text =
      lines printer.text ++ [spaces depth ++ exportLine name] := by
  have isLine : "/* export: '" ++ String.join [comment name, "' */"] = exportLine name := by
    unfold exportLine
    simp [String.append_assoc]
  have written := lines_line atLine (show "/* export: '" ≠ "" by decide) _
    (isLine ▸ newline_not_mem_exportLine name)
  rwa [isLine] at written

theorem lines_entry {commented : Printer} {line : String} (isIndent : commented.indent = depth)
    (written : lines commented.text = lines printer.text ++ [line]) (texts : List String) :
    (commented.line texts).AtLine depth ∧
      lines printer.text ++ [line] <+: lines (commented.line texts).text := by
  refine ⟨atLine_line _ texts isIndent, ?_⟩
  rw [← written]
  exact ((Continues.refl commented).line texts).lines_stay

theorem lines_importEntry (atLine : printer.AtLine depth) (entry : Import) (texts : List String) :
    ((printer.importComment entry).line texts).AtLine depth ∧
      lines printer.text ++ [spaces depth ++ importLine entry] <+:
        lines ((printer.importComment entry).line texts).text := by
  have sameIndent : (printer.importComment entry).indent = printer.indent :=
    ((Continues.refl printer).line _).indent
  exact lines_entry (sameIndent.trans atLine.indent) (lines_importComment atLine entry) texts

theorem lines_exportEntry (atLine : printer.AtLine depth) (name : String) (texts : List String) :
    ((printer.exportComment name).line texts).AtLine depth ∧
      lines printer.text ++ [spaces depth ++ exportLine name] <+:
        lines ((printer.exportComment name).line texts).text := by
  have sameIndent : (printer.exportComment name).indent = printer.indent :=
    ((Continues.refl printer).line _).indent
  exact lines_entry (sameIndent.trans atLine.indent) (lines_exportComment atLine name) texts

theorem lines_imports (isIndent : printer.indent = depth) (objects : List ImportedObject) :
    (lines printer.text ++ objects.map fun object =>
      spaces depth ++ importLine object.entry).Sublist (lines (printer.imports objects).text) := by
  refine lines_gap_each (fun printer object atLine => ?_) isIndent objects
  exact lines_importEntry atLine object.entry _

theorem lines_exports (isIndent : printer.indent = depth) (storage : String)
    (objects : List ExportedObject) :
    (lines printer.text ++ objects.map fun object =>
      spaces depth ++ exportLine object.name).Sublist
        (lines (printer.exports storage objects).text) := by
  refine lines_gap_each (fun printer object atLine => ?_) isIndent objects
  exact lines_exportEntry atLine object.name _

/-- Between the braces of the function that sets the exports, the comments are indented. -/
theorem lines_exportValues (printer : Printer) (program : Program) :
    (lines printer.text ++ (program.exports.zip program.exportTargets).map fun entry =>
      spaces (printer.indent + step) ++ exportLine entry.1.name).Sublist
        (lines (printer.exportValues program).text) := by
  unfold exportValues setup procedure
  have headed := (Continues.refl printer).newline.writeAll
    ["static void " ++ "init_exports", "(void) "]
  generalize printer.newline.writeAll ["static void " ++ "init_exports", "(void) "] = head at *
  rcases openBrace_text head with ⟨isIndent, -, more, isText⟩
  have atLine : head.openBrace.AtLine (printer.indent + step) := by
    rw [← headed.indent]
    exact atLine_openBrace head
  have before : lines printer.text <+: lines head.openBrace.text := by
    rw [isText, String.append_assoc]
    exact headed.lines_stay.trans (lines_stay head.text _)
  have entries := lines_each (fun _ (entry : ExportedObject × External) atLine =>
    lines_exportEntry atLine entry.1.name
      [Symbol.prefixed entry.1.symbol, " = ", entry.2.pointer, ";"])
    atLine (program.exports.zip program.exportTargets)
  refine ((before.sublist.append_right _).trans entries).trans ?_
  exact ((Continues.refl (dedent _ step)).write "\x7d").newline.lines_stay.sublist

end Printer

namespace Program

open Printer

theorem spaces_zero_append (text : String) : spaces 0 ++ text = text := String.empty_append

theorem lines_header (program : Program) (fileName : String) :
    (program.imports.map (importLine ·.entry) ++ program.exports.map (exportLine ·.name)).Sublist
      (lines (program.header fileName)) := by
  unfold header
  dsimp only
  have top := (((Continues.refl ({} : Printer)).line ["#ifndef ", guard (Text.bytes fileName)]).line
    ["#define ", guard (Text.bytes fileName)]).newline.verbatim headerTop
  generalize ((((({} : Printer).line _).line _).newline).verbatim headerTop) = before at *
  have imports := lines_imports top.indent program.imports
  have exports := lines_exports (top.imports program.imports).indent "extern " program.exports
  have rest := ((((Continues.refl ((before.imports program.imports).exports "extern "
    program.exports)).newline.verbatim headerBottom).newline).line
      ["#endif  /* ", guard (Text.bytes fileName), " */"]).lines_stay
  simp only [spaces_zero_append] at imports exports
  refine List.Sublist.trans ?_ (exports.trans rest.sublist)
  exact ((List.sublist_append_right _ _).trans imports).append_right _

/-- The comments of a source: those of the pointers, and those of their values. -/
theorem lines_source (program : Program) (fileName : String) :
    (program.exports.map (exportLine ·.name) ++
      (program.exports.zip program.exportTargets).map fun entry =>
        spaces step ++ exportLine entry.1.name).Sublist (lines (program.source fileName)) := by
  unfold source
  dsimp only
  have top := ((((Continues.refl ({} : Printer)).verbatim includes).newline.line
    ["#include \"", fileName, "\""]).newline.verbatim helpers).types program.types
  have declared := (top.gap program.prototypes).each program.prototypes
    fun printer (entry : String × Prototype) =>
      (Continues.refl printer).line ["static ", entry.2.declare entry.1, ";"]
  have defined := ((((declared.globals program).objects .memory program.memories).objects .table
    program.tables).datas program).table program
  have written := defined.each program.functionTexts fun printer text =>
    ((Continues.refl printer).newline.verbatim text).newline
  generalize Printer.each _ program.functionTexts _ = before at *
  have exports := lines_exports written.indent "" program.exports
  have sameIndent := (written.exports "" program.exports).indent
  have values := lines_exportValues (before.exports "" program.exports) program
  have rest := ((Continues.refl ((before.exports "" program.exports).exportValues program)).start
    program.starts).lines_stay
  rw [sameIndent] at values
  simp only [spaces_zero_append] at exports
  refine List.Sublist.trans ?_ (values.trans rest.sublist)
  exact ((List.sublist_append_right _ _).trans exports).append_right _

end Program

end WasmLowering.C

namespace WasmLowering

open C

namespace Emission

variable {module : Module} {program : C.Program} {after : Stages}

theorem importObject_entry (module : Module) (entry : Import) (number : Nat)
    (symbols : EntitySymbols) :
    Meets True (importObject module entry number) symbols fun object _ => object.entry = entry := by
  apply (Meets.anything _ symbols).bind
  intro ⟨_, _, type⟩ _ _
  apply Meets.bind_get
  apply (Meets.anything _ _).bind
  intro _ _ _
  apply (Meets.anything _ _).bind
  intro _ _ _
  apply (Meets.anything _ _).bind
  intro _ _ _
  exact .pure rfl

theorem Built.importEntries (built : Built module program after) :
    program.imports.map (·.entry) = module.imports := by
  have entries : Meets True ((numberedImports module).mapM fun numbered =>
      importObject module numbered.1 numbered.2) {} fun objects _ =>
        List.Forall₂ (fun (numbered : Import × Nat) object => object.entry = numbered.1) _
          objects :=
    .mapM (fun numbered symbols => importObject_entry module numbered.1 numbered.2 symbols) _
  have sameEntries := map_eq_of_forall₂ (entries.of_ok built.imports) fun _ _ same => same
  rw [sameEntries, numberedImports, List.map_map]
  exact List.zipIdx_map_fst 0 module.imports

theorem Built.exportTargets_length (built : Built module program after) :
    program.exportTargets.length = program.exports.length := by
  rcases built.exportTargets with ⟨_, targets⟩
  exact mapM_length targets

end Emission

/-- A module that imports and exports one function under names that would end a comment. -/
def hostileNames : List UInt8 :=
  [0x00, 0x61, 0x73, 0x6D, 0x01, 0x00, 0x00, 0x00,
    -- The type `[] -> []`.
    0x01, 0x04, 0x01, 0x60, 0x00, 0x00,
    -- The import of the names `a*/b` and `x`, with a newline, `y` and a backslash.
    0x02, 0x0D, 0x01, 0x04, 0x61, 0x2A, 0x2F, 0x62, 0x04, 0x78, 0x0A, 0x79, 0x5C, 0x00, 0x00,
    -- The export `x*/y`.
    0x07, 0x08, 0x01, 0x04, 0x78, 0x2A, 0x2F, 0x79, 0x00, 0x00]

end WasmLowering
