import WasmLowering.C.Literal
import WasmLowering.C.Operator
import WasmLowering.C.Printer
import WasmLowering.C.Spelling

/-! The text of C functions. -/

namespace WasmLowering.C

def addressText (base : String) (offset : UInt64) : String :=
  "(u64)(" ++ base ++ ")" ++ if offset = 0 then "" else " + " ++ toString offset.toNat ++ "u"

example : addressText "i0" 8 = "(u64)(i0) + 8u" := by decide

def binaryText (spelling : Spelling) (opcode : Opcode) (target left right : Slot) : String :=
  let operator := (binaryOperator? opcode).getD ⟨.helper, opcode.accessor⟩
  let result := spelling.slot target
  let first := spelling.slot left
  let second := spelling.slot right
  match operator.form with
  | .compound => result ++ " " ++ operator.text ++ "= " ++ second
  | .relation => result ++ " = " ++ first ++ " " ++ operator.text ++ " " ++ second
  | .signedRelation =>
      let signed := "(" ++ left.type.signedName ++ ")"
      result ++ " = (" ++ target.type.cName ++ ")(" ++ signed ++ first ++ " " ++ operator.text ++
        " " ++ signed ++ second ++ ")"
  | .helper => result ++ " = " ++ operator.text ++ "(" ++ first ++ ", " ++ second ++ ")"
  | .shift =>
      result ++ " " ++ operator.text ++ "= (" ++ second ++ " & " ++ left.type.shiftMask ++ ")"
  | .signedShift =>
      result ++ " = (" ++ target.type.cName ++ ")((" ++ left.type.signedName ++ ")" ++ first ++
        " >> (" ++ second ++ " & " ++ left.type.shiftMask ++ "))"

def exprText (spelling : Spelling) : Expr → String
  | .literal value => literal value
  | .named name => spelling.named name
  | .global global => global.value
  | .unary opcode operand =>
      (unaryFunction? opcode).getD opcode.accessor ++ "(" ++ spelling.slot operand ++ ")"
  | .binary opcode left right =>
      opcode.accessor ++ "(" ++ spelling.slot left ++ ", " ++ spelling.slot right ++ ")"
  | .select condition first second =>
      spelling.slot condition ++ " ? " ++ spelling.slot first ++ " : " ++ spelling.slot second
  | .load opcode memory address offset =>
      opcode.accessor ++ "(" ++ memory.pointer ++ ", " ++
        addressText (spelling.slot address) offset ++ ")"
  | .size memory => memory.value ++ ".pages"
  | .grow memory pages =>
      "wasm_rt_grow_memory(" ++ memory.pointer ++ ", " ++ spelling.slot pages ++ ")"

def targetText (spelling : Spelling) : Option Slot → String
  | none => ""
  | some target => spelling.slot target ++ " = "

def argumentsText (spelling : Spelling) (arguments : List Slot) : String :=
  ", ".intercalate (arguments.map spelling.slot)

def jumpText (spelling : Spelling) (jump : Jump) : String :=
  String.join (jump.copies.map fun (target, source) =>
    spelling.slot target ++ " = " ++ spelling.slot source ++ "; ") ++
    "goto " ++ spelling.label jump.target ++ ";"

namespace Printer

def switchCases (spelling : Spelling) (printer : Printer) (number : Nat) : List Jump → Printer
  | [] => printer
  | jump :: rest =>
      switchCases spelling
        (printer.line ["case " ++ toString number ++ ": ", jumpText spelling jump])
        (number + 1) rest

mutual

def stmt (spelling : Spelling) (printer : Printer) : Stmt → Printer
  | .assign target (.binary opcode left right) =>
      printer.line [binaryText spelling opcode target left right, ";"]
  | .assign target value =>
      printer.line [spelling.slot target, " = ", exprText spelling value, ";"]
  | .setNamed name value =>
      printer.line [spelling.named name, " = ", spelling.slot value, ";"]
  | .setGlobal global value =>
      printer.line [global.value, " = ", spelling.slot value, ";"]
  | .store opcode memory address offset value =>
      printer.line [opcode.accessor, "(", memory.pointer, ", ",
        addressText (spelling.slot address) offset, ", ", spelling.slot value, ");"]
  | .fill memory start value count =>
      printer.line ["memory_fill(", memory.pointer, ", ",
        argumentsText spelling [start, value, count], ");"]
  | .copy target source start origin count =>
      printer.line ["memory_copy(", target.pointer, ", ", source.pointer, ", ",
        argumentsText spelling [start, origin, count], ");"]
  | .call target callee arguments =>
      printer.line [targetText spelling target, callee.value, "(",
        argumentsText spelling arguments, ");"]
  | .callIndirect target table prototype typeIndex position arguments =>
      printer.line [targetText spelling target, "CALL_INDIRECT(", table.value, ", ",
        prototype.declare "(*)", ", ", toString typeIndex.toNat, ", ",
        argumentsText spelling (position :: arguments), ");"]
  | .trap => printer.line ["UNREACHABLE;"]
  | .jump jump => printer.line [jumpText spelling jump]
  | .jumpIf condition jump =>
      printer.line ["if (", spelling.slot condition, ") \x7b", jumpText spelling jump, "\x7d"]
  | .switch position cases otherwise =>
      let opened := (printer.writeAll ["switch (", spelling.slot position, ") "]).openBrace
      ((opened.switchCases spelling 0 cases).line
        ["default: ", jumpText spelling otherwise]).closeBrace.newline
  | .label label => printer.line [spelling.label label, ":;"]
  | .ifThen condition body =>
      let opened := (printer.writeAll ["if (", spelling.slot condition, ") "]).openBrace
      (opened.stmts spelling body).closeBrace.newline
  | .ifThenElse condition thenBody elseBody =>
      let opened := (printer.writeAll ["if (", spelling.slot condition, ") "]).openBrace
      let closed := (opened.stmts spelling thenBody).closeBrace
      (((closed.write " else ").openBrace).stmts spelling elseBody).closeBrace.newline

def stmts (spelling : Spelling) (printer : Printer) : List Stmt → Printer
  | [] => printer
  | stmt :: rest => (printer.stmt spelling stmt).stmts spelling rest

end

def itemsPerLine : Nat := 8

def items (printer : Printer) (number : Nat) : List String → Printer
  | [] => printer
  | item :: rest =>
      let printer :=
        if number = 0 then printer
        else if number % itemsPerLine = 0 then (printer.write ", ").newline.write "    "
        else printer.write ", "
      (printer.write item).items (number + 1) rest

def declaration (printer : Printer) (type : Scalar) (names : List String) : Printer :=
  if names.isEmpty then printer
  else ((printer.writeAll [type.cName, " "]).items 0 names).line [";"]

end Printer

namespace Function

def textWith (function : Function) (spelling : Spelling) : String :=
  let symbols := spelling.map (·.2)
  let params := function.params.zip symbols
  let locals := function.locals.zip (symbols.drop function.params.length)
  let head := ({} : Printer).writeAll
    ["static ", resultName function.result, " ", function.symbol, "("]
  let head :=
    if params.isEmpty then head.write "void"
    else head.items 0 (params.map fun ((type, _), symbol) => type.cName ++ " " ++ symbol)
  let printer := (head.write ") ").openBrace
  let printer := Scalar.all.foldl (fun printer type =>
    printer.declaration type
      ((locals.filter (·.1.1 = type)).map fun (_, symbol) => symbol ++ " = 0")) printer
  let printer := printer.line ["FUNC_PROLOGUE;"]
  let printer := Scalar.all.foldl (fun printer type =>
    printer.declaration type ((function.slotsOf type).map spelling.slot)) printer
  let printer := (printer.stmts spelling function.body).line ["FUNC_EPILOGUE;"]
  let printer :=
    match function.returned with
    | none => printer
    | some slot => printer.line ["return ", spelling.slot slot, ";"]
  printer.closeBrace.newline.text

def text (taken : Symbol.SymbolSet) (function : Function) : String :=
  function.textWith (function.spelling taken)

end Function

end WasmLowering.C
