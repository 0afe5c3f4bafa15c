import WasmLowering.C.ProgramText
import WasmLowering.Proofs.Symbols.FunctionLayout

/-! The lines of a printed text.

A printer only adds to its text, and the indentation behind a part of a program is the one in
front of it. So a line that has been ended stays as it is, and where a line begins can be told
from the parts that have been written. -/

namespace WasmLowering.C

/-! ## Lines -/

def lines (text : String) : List String :=
  ((text.toList.splitOn '\n').dropLast).map String.ofList

theorem splitOn_stay (before more : List Char) :
    (before.splitOn '\n').dropLast <+: ((before ++ more).splitOn '\n').dropLast := by
  by_cases ends : '\n' ∈ before
  · rcases List.eq_append_cons_of_mem ends with ⟨line, rest, isText, noNewline⟩
    have fewer : rest.length < before.length := by
      rw [isText, List.length_append, List.length_cons]
      omega
    rw [isText, List.append_assoc, List.cons_append,
      List.splitOn_append_cons_self_of_not_mem noNewline,
      List.splitOn_append_cons_self_of_not_mem noNewline,
      List.dropLast_cons_of_ne_nil (List.splitOn_ne_nil _ _),
      List.dropLast_cons_of_ne_nil (List.splitOn_ne_nil _ _)]
    exact List.cons_prefix_cons.mpr ⟨rfl, splitOn_stay rest more⟩
  · rw [List.splitOn_eq_singleton ends]
    exact List.nil_prefix
termination_by before.length

theorem lines_stay (before more : String) : lines before <+: lines (before ++ more) := by
  rw [lines, lines, String.toList_append]
  exact (splitOn_stay before.toList more.toList).map String.ofList

theorem lines_append_line (before : String) {line : String} (oneLine : '\n' ∉ line.toList) :
    lines (before ++ "\n" ++ line ++ "\n") = lines (before ++ "\n") ++ [line] := by
  have newline : "\n".toList = ['\n'] := rfl
  simp only [lines, String.toList_append, newline, List.append_assoc, List.cons_append,
    List.nil_append, List.splitOn_append_cons_self, List.splitOn_nil,
    List.splitOn_append_cons_self_of_not_mem oneLine]
  rw [List.dropLast_append_of_ne_nil (List.cons_ne_nil _ _), List.dropLast_concat,
    List.map_append]
  simp

namespace Printer

/-! ## Parts that follow each other -/

structure Continues (printer later : Printer) : Prop where
  indent : later.indent = printer.indent
  text : ∃ more, later.text = printer.text ++ more

section

variable {printer middle later : Printer} {entry : Type}

theorem Continues.refl (printer : Printer) : printer.Continues printer :=
  ⟨rfl, "", by rw [String.append_empty]⟩

theorem Continues.trans (first : printer.Continues middle) (second : middle.Continues later) :
    printer.Continues later := by
  rcases first with ⟨sameIndent, more, isMore⟩
  rcases second with ⟨stillSame, rest, isRest⟩
  exact ⟨stillSame.trans sameIndent, more ++ rest, by rw [isRest, isMore, String.append_assoc]⟩

theorem Continues.lines_stay (continues : printer.Continues later) :
    lines printer.text <+: lines later.text := by
  rcases continues.text with ⟨more, isText⟩
  rw [isText]
  exact C.lines_stay printer.text more

theorem Continues.put (continues : printer.Continues later) (text : String) :
    printer.Continues (later.put text) :=
  continues.trans ⟨rfl, later.margin ++ text, String.append_assoc ..⟩

theorem Continues.write (continues : printer.Continues later) (text : String) :
    printer.Continues (later.write text) := by
  unfold Printer.write
  split
  · exact continues
  · exact continues.put text

theorem Continues.writeAll (continues : printer.Continues later) (texts : List String) :
    printer.Continues (later.writeAll texts) := by
  induction texts generalizing later with
  | nil => exact continues
  | cons text rest induction => exact induction (continues.write text)

theorem Continues.newline (continues : printer.Continues later) :
    printer.Continues later.newline :=
  continues.trans ⟨rfl, "\n", rfl⟩

theorem Continues.line (continues : printer.Continues later) (texts : List String) :
    printer.Continues (later.line texts) :=
  (continues.writeAll texts).newline

theorem Continues.verbatim (continues : printer.Continues later) (text : String) :
    printer.Continues (later.verbatim text) := by
  unfold Printer.verbatim
  split
  · exact continues
  · exact continues.trans ⟨rfl, text, rfl⟩

theorem Continues.gap (continues : printer.Continues later) (items : List entry) :
    printer.Continues (later.gap items) := by
  unfold Printer.gap
  split
  · exact continues
  · exact continues.newline

theorem Continues.each (continues : printer.Continues later) (items : List entry)
    {one : Printer → entry → Printer}
    (step : ∀ (printer : Printer) (item : entry), printer.Continues (one printer item)) :
    printer.Continues (later.each items one) := by
  induction items generalizing later with
  | nil => exact continues
  | cons item rest induction => exact induction (continues.trans (step later item))

theorem openBrace_text (printer : Printer) : printer.openBrace.indent = printer.indent + step ∧
    printer.openBrace.atLineStart = true ∧
      ∃ more, printer.openBrace.text = printer.text ++ more ++ "\n" := by
  rcases (Continues.refl printer).write "\x7b" with ⟨sameIndent, brace, isBrace⟩
  refine ⟨?_, rfl, brace, ?_⟩
  · show _ + step = _
    rw [sameIndent]
  · show _ ++ "\n" = _
    rw [isBrace]

/-- Between braces the indentation is larger, and behind them it is as it was. -/
theorem Continues.braces (continues : printer.Continues later) {body : Printer → Printer}
    (inner : ∀ printer : Printer, printer.Continues (body printer)) :
    printer.Continues (body later.openBrace).closeBrace := by
  refine continues.trans ?_
  rcases openBrace_text later with ⟨isIndent, -, opened, isOpened⟩
  rcases inner later.openBrace with ⟨sameIndent, written, isWritten⟩
  rcases (Continues.refl ((body later.openBrace).dedent step)).write "\x7d" with
    ⟨closedIndent, brace, isClosed⟩
  refine ⟨?_, opened ++ "\n" ++ written ++ brace, ?_⟩
  · rw [closeBrace, closedIndent, dedent, sameIndent, isIndent]
    show ((later.indent + step : Nat) - (step : Nat) : Int).toNat = _
    omega
  · rw [closeBrace, isClosed, dedent, isWritten, isOpened]
    simp only [String.append_assoc]

theorem Continues.procedure (continues : printer.Continues later) (head : String)
    {body : Printer → Printer} (inner : ∀ printer : Printer, printer.Continues (body printer)) :
    printer.Continues (later.procedure head body) :=
  ((continues.newline.writeAll [head, "(void) "]).braces inner).newline

/-! ## The parts of a source -/

theorem Continues.types (continues : printer.Continues later)
    (types : List (List Scalar × List Scalar)) : printer.Continues (later.types types) := by
  have entries : ∀ (types : List (List Scalar × List Scalar)) (number : Nat) (printer : Printer),
      printer.Continues (printer.typeEntries number types) := by
    intro types
    induction types with
    | nil => exact fun _ printer => .refl printer
    | cons type rest induction =>
        intro number printer
        exact ((Continues.refl printer).line _).trans (induction (number + 1) _)
  unfold Printer.types setup
  exact (continues.newline.line _).procedure _ (entries types 0)

theorem Continues.globals (continues : printer.Continues later) (program : Program) :
    printer.Continues (later.globals program) := by
  unfold Printer.globals setup
  dsimp only
  refine ((continues.gap program.globals).each program.globals ?_).procedure _ fun printer => ?_
  · exact fun printer _ => (Continues.refl printer).line _
  · exact (Continues.refl printer).each _ fun printer _ => (Continues.refl printer).line _

theorem Continues.objects (continues : printer.Continues later) (type : ObjectType)
    (symbols : List String) : printer.Continues (later.objects type symbols) :=
  (continues.gap symbols).each symbols fun printer _ => (Continues.refl printer).line _

theorem Continues.allocation (continues : printer.Continues later) (function : String)
    (allocation : Option Allocation) :
    printer.Continues (later.allocation function allocation) := by
  cases allocation with
  | none => exact continues
  | some allocation => exact continues.line _

theorem continues_dataArray (printer : Printer) (array : DataArray) :
    printer.Continues (printer.dataArray array) := by
  have bytes : ∀ (bytes : List UInt8) (number : Nat) (printer : Printer),
      printer.Continues (printer.bytes number bytes) := by
    intro bytes
    induction bytes with
    | nil =>
        intro number printer
        unfold Printer.bytes
        split
        · exact .refl printer
        · exact (Continues.refl printer).newline
    | cons byte rest induction =>
        intro number printer
        have written := (Continues.refl printer).writeAll ["0x", Text.hex 2 byte.toNat, ", "]
        unfold Printer.bytes
        dsimp only
        split
        · exact written.newline.trans (induction _ _)
        · exact written.trans (induction _ _)
  unfold dataArray
  exact (((Continues.refl printer).newline.writeAll _).braces (bytes array.bytes 0)).line _

theorem Continues.datas (continues : printer.Continues later) (program : Program) :
    printer.Continues (later.datas program) := by
  unfold Printer.datas setup
  refine (continues.each program.dataArrays continues_dataArray).procedure _ fun printer => ?_
  refine ((Continues.refl printer).allocation _ _).each _ fun printer copy => ?_
  unfold dataCopy
  exact ((Continues.refl printer).line _).line _

theorem continues_elementCopy (printer : Printer) (copy : ElementCopy) :
    printer.Continues (printer.elementCopy copy) := by
  have elements : ∀ (elements : List Element) (number : Nat) (printer : Printer),
      printer.Continues (printer.elements copy.table number elements) := by
    intro elements
    induction elements with
    | nil => exact fun _ printer => .refl printer
    | cons element rest induction =>
        intro number printer
        unfold Printer.elements
        exact ((Continues.refl printer).line _).trans (induction (number + 1) _)
  unfold elementCopy
  exact (((Continues.refl printer).line _).line _).trans (elements copy.elements 0 _)

theorem Continues.table (continues : printer.Continues later) (program : Program) :
    printer.Continues (later.table program) := by
  unfold Printer.table setup
  refine continues.procedure _ fun printer => ?_
  have offset : printer.Continues
      (if program.elementCopies.isEmpty then printer else printer.line ["u32 offset;"]) := by
    split
    · exact .refl printer
    · exact (Continues.refl printer).line _
  exact (offset.allocation _ _).each _ continues_elementCopy

theorem Continues.imports (continues : printer.Continues later) (objects : List ImportedObject) :
    printer.Continues (later.imports objects) := by
  unfold Printer.imports importComment
  exact (continues.gap objects).each objects fun printer _ =>
    ((Continues.refl printer).line _).line _

theorem Continues.exports (continues : printer.Continues later) (storage : String)
    (objects : List ExportedObject) : printer.Continues (later.exports storage objects) := by
  unfold Printer.exports exportComment
  exact (continues.gap objects).each objects fun printer _ =>
    ((Continues.refl printer).line _).line _

theorem Continues.start (continues : printer.Continues later) (starts : List External) :
    printer.Continues (later.start starts) := by
  unfold Printer.start
  refine continues.procedure _ fun printer => ?_
  refine ((Continues.refl printer).each _ fun printer _ => ?_).each _ fun printer _ => ?_
  · exact (Continues.refl printer).line _
  · exact (Continues.refl printer).line _

end

/-! ## Lines within a part -/

structure AtLine (printer : Printer) (depth : Nat) : Prop where
  indent : printer.indent = depth
  atLineStart : printer.atLineStart = true
  text : ∃ before, printer.text = before ++ "\n"

section

variable {printer : Printer} {entry : Type} {depth : Nat}

theorem atLine_newline (printer : Printer) : printer.newline.AtLine printer.indent :=
  ⟨rfl, rfl, printer.text, rfl⟩

theorem atLine_openBrace (printer : Printer) :
    printer.openBrace.AtLine (printer.indent + step) := by
  rcases openBrace_text printer with ⟨isIndent, atLineStart, more, isText⟩
  exact ⟨isIndent, atLineStart, printer.text ++ more, isText⟩

theorem atLine_line (printer : Printer) (texts : List String)
    (isIndent : printer.indent = depth) : (printer.line texts).AtLine depth := by
  have written := atLine_newline (printer.writeAll texts)
  rwa [((Continues.refl printer).writeAll texts).indent, isIndent] at written

/-- A line that is written from its beginning is one more line of the text. -/
theorem lines_line (atLine : printer.AtLine depth) {first : String} (given : first ≠ "")
    (rest : List String) (oneLine : '\n' ∉ (first ++ String.join rest).toList) :
    lines (printer.line (first :: rest)).text =
      lines printer.text ++ [spaces depth ++ (first ++ String.join rest)] := by
  rcases printer with ⟨text, indent, atLineStart⟩
  rcases atLine with ⟨rfl, rfl, before, rfl⟩
  have noNewline : '\n' ∉ (spaces indent ++ (first ++ String.join rest)).toList := by
    rw [String.toList_append, List.mem_append, not_or]
    refine ⟨?_, oneLine⟩
    rw [spaces, String.toList_ofList]
    exact fun member => absurd (List.eq_of_mem_replicate member) (by decide)
  rw [Printer.line, writeAll, List.foldl_cons, write_first _ _ given]
  refine (congrArg (fun printer : Printer => lines printer.newline.text)
    (writeAll_within _ _ rest)).trans ?_
  refine Eq.trans ?_ (lines_append_line before noNewline)
  simp only [newline, String.append_assoc]

theorem lines_each {one : Printer → entry → Printer} {line : entry → String}
    (step : ∀ printer entry, printer.AtLine depth → (one printer entry).AtLine depth ∧
      lines printer.text ++ [line entry] <+: lines (one printer entry).text)
    (atLine : printer.AtLine depth) (entries : List entry) :
    (lines printer.text ++ entries.map line).Sublist (lines (printer.each entries one).text) := by
  induction entries generalizing printer with
  | nil => simp [each]
  | cons entry rest induction =>
      rcases step printer entry atLine with ⟨atNext, written⟩
      have behind := induction atNext
      rw [List.map_cons, ← List.singleton_append, ← List.append_assoc]
      exact (written.sublist.append_right _).trans behind

theorem lines_gap_each {one : Printer → entry → Printer} {line : entry → String}
    (step : ∀ printer entry, printer.AtLine depth → (one printer entry).AtLine depth ∧
      lines printer.text ++ [line entry] <+: lines (one printer entry).text)
    (isIndent : printer.indent = depth) (entries : List entry) :
    (lines printer.text ++ entries.map line).Sublist
      (lines ((printer.gap entries).each entries one).text) := by
  cases entries with
  | nil => simp [gap, each]
  | cons entry rest =>
      have atLine : printer.newline.AtLine depth := isIndent ▸ atLine_newline printer
      have before := (Continues.refl printer).newline.lines_stay.sublist
      exact (before.append_right _).trans (lines_each step atLine (entry :: rest))

end

end Printer

end WasmLowering.C
