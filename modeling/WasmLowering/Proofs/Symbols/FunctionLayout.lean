import WasmLowering.C.FunctionText
import WasmLowering.Proofs.Lowering.Frame

/-! How the text of a function is laid out.

The head declares the parameters, the first lines of the body the locals and the
variables of the operand stack, each type together, and the statements follow. What has
been written already does not change what is written behind it, so the text is made of
the texts of these parts. -/

namespace WasmLowering.C

/-! ## Variables -/

structure Variable where
  ident : Ident
  type : Scalar
  symbol : String
  /-- Whether it is set to zero where it is declared. -/
  isZeroed : Bool
  deriving DecidableEq, Repr

def Variable.declarator (declared : Variable) : String :=
  if declared.isZeroed then declared.symbol ++ " = 0" else declared.symbol

def placeVariables (isZeroed : Bool) (places : List (Scalar × String)) (symbols : List String) :
    List Variable :=
  (places.zip symbols).map fun ((type, name), symbol) => ⟨.named name, type, symbol, isZeroed⟩

namespace Function

def paramVariables (function : Function) (spelling : Spelling) : List Variable :=
  placeVariables false function.params (spelling.map (·.2))

def localVariables (function : Function) (spelling : Spelling) : List Variable :=
  placeVariables true function.locals ((spelling.map (·.2)).drop function.params.length)

def slotVariables (function : Function) (spelling : Spelling) : List Variable :=
  Scalar.all.flatMap fun type => (function.slotsOf type).map fun slot =>
    ⟨.slot slot, type, spelling.slot slot, false⟩

def declared (function : Function) (spelling : Spelling) : List Variable :=
  function.paramVariables spelling ++ function.localVariables spelling ++
    function.slotVariables spelling

end Function

/-! ## The texts of declarations -/

def spaces (count : Nat) : String := String.ofList (List.replicate count ' ')

def separator (indent number : Nat) : String :=
  if number = 0 then ""
  else if number % Printer.itemsPerLine = 0 then ", \n" ++ spaces indent ++ "    "
  else ", "

def itemsText (indent : Nat) : (number : Nat) → List String → String
  | _, [] => ""
  | number, item :: rest => separator indent number ++ item ++ itemsText indent (number + 1) rest

def declarationText (indent : Nat) (type : Scalar) (items : List String) : String :=
  if items.isEmpty then ""
  else spaces indent ++ type.cName ++ " " ++ itemsText indent 0 items ++ ";\n"

def declarationsText (indent : Nat) (declared : List Variable) : String :=
  String.join (Scalar.all.map fun type => declarationText indent type
    ((declared.filter (·.type = type)).map Variable.declarator))

def paramsText (params : List Variable) : String :=
  if params.isEmpty then "void"
  else itemsText 0 0 (params.map fun param => param.type.cName ++ " " ++ param.declarator)

def Function.bodyText (function : Function) (spelling : Spelling) : String :=
  let printer := ((⟨"", Printer.step, true⟩ : Printer).stmts spelling function.body).line
    ["FUNC_EPILOGUE;"]
  let printer :=
    match function.returned with
    | none => printer
    | some slot => printer.line ["return ", spelling.slot slot, ";"]
  printer.closeBrace.newline.text

namespace Printer

/-! ## Behind what has been written -/

def after (before : String) (printer : Printer) : Printer :=
  { printer with text := before ++ printer.text }

section

variable (before : String)

theorem after_put (printer : Printer) (text : String) :
    (printer.after before).put text = (printer.put text).after before := by
  have sameMargin : (printer.after before).margin = printer.margin := rfl
  rw [put, sameMargin]
  simp only [after, put, String.append_assoc]

theorem after_write (printer : Printer) (text : String) :
    (printer.after before).write text = (printer.write text).after before := by
  unfold write
  split
  · rfl
  · exact after_put before printer text

theorem after_writeAll (printer : Printer) (texts : List String) :
    (printer.after before).writeAll texts = (printer.writeAll texts).after before := by
  induction texts generalizing printer with
  | nil => rfl
  | cons text rest induction =>
      simp only [writeAll, List.foldl_cons, after_write] at induction ⊢
      exact induction (printer.write text)

theorem after_newline (printer : Printer) :
    (printer.after before).newline = printer.newline.after before := by
  simp only [after, newline, String.append_assoc]

theorem after_line (printer : Printer) (texts : List String) :
    (printer.after before).line texts = (printer.line texts).after before := by
  rw [line, line, after_writeAll, after_newline]

theorem after_openBrace (printer : Printer) :
    (printer.after before).openBrace = printer.openBrace.after before := by
  rw [openBrace, openBrace, after_write]
  simp only [after, newline, String.append_assoc]

theorem after_closeBrace (printer : Printer) :
    (printer.after before).closeBrace = printer.closeBrace.after before :=
  after_write before (printer.dedent step) _

variable (spelling : Spelling)

theorem after_switchCases (printer : Printer) (number : Nat) (cases : List Jump) :
    switchCases spelling (printer.after before) number cases =
      (switchCases spelling printer number cases).after before := by
  induction cases generalizing printer number with
  | nil => rfl
  | cons jump rest induction =>
      rw [switchCases, after_line]
      exact induction _ (number + 1)

mutual

theorem after_stmt (printer : Printer) (stmt : Stmt) :
    (printer.after before).stmt spelling stmt = (printer.stmt spelling stmt).after before := by
  match stmt with
  | .ifThen condition body =>
      simp only [Printer.stmt, after_writeAll, after_openBrace, after_stmts _ body,
        after_closeBrace, after_newline]
  | .ifThenElse condition thenBody elseBody =>
      simp only [Printer.stmt, after_writeAll, after_openBrace, after_stmts _ thenBody,
        after_stmts _ elseBody, after_closeBrace, after_write, after_newline]
  | .switch position cases otherwise =>
      simp only [Printer.stmt, after_writeAll, after_openBrace, after_switchCases, after_line,
        after_closeBrace, after_newline]
  | .assign _ value => cases value <;> exact after_line before printer _
  | .setNamed .. | .setGlobal .. | .store .. | .fill .. | .copy .. | .call .. | .callIndirect ..
  | .trap | .jump _ | .jumpIf .. | .label _ => exact after_line before printer _

theorem after_stmts (printer : Printer) (stmts : List Stmt) :
    (printer.after before).stmts spelling stmts = (printer.stmts spelling stmts).after before := by
  match stmts with
  | [] => rfl
  | first :: rest =>
      rw [Printer.stmts, Printer.stmts, after_stmt printer first]
      exact after_stmts _ rest

end

end

/-! ## Within a line, and from line to line

A printer within a line is `⟨text, indent, false⟩`, and one that begins a line is
`⟨text, indent, true⟩`. -/

variable (text : String) (indent : Nat)

theorem write_within (more : String) :
    (⟨text, indent, false⟩ : Printer).write more = ⟨text ++ more, indent, false⟩ := by
  unfold write
  split
  · next isEmpty => simp [isEmpty]
  · simp [put, margin]

theorem writeAll_within (texts : List String) :
    (⟨text, indent, false⟩ : Printer).writeAll texts =
      ⟨text ++ String.join texts, indent, false⟩ := by
  induction texts generalizing text with
  | nil => simp [writeAll]
  | cons first rest induction =>
      rw [writeAll, List.foldl_cons, write_within]
      exact (induction _).trans (by simp [String.append_assoc])

theorem write_first {more : String} (written : more ≠ "") :
    (⟨text, indent, true⟩ : Printer).write more =
      ⟨text ++ spaces indent ++ more, indent, false⟩ := by
  rw [write, if_neg written]
  rfl

theorem newline_any (atLineStart : Bool) :
    (⟨text, indent, atLineStart⟩ : Printer).newline = ⟨text ++ "\n", indent, true⟩ := rfl

theorem openBrace_within :
    (⟨text, indent, false⟩ : Printer).openBrace = ⟨text ++ "\x7b\n", indent + step, true⟩ := by
  rw [openBrace, write_within]
  simp [newline, String.append_assoc]

theorem line_first {more : String} (written : more ≠ "") :
    (⟨text, indent, true⟩ : Printer).line [more] =
      ⟨text ++ spaces indent ++ more ++ "\n", indent, true⟩ := by
  rw [line, writeAll, List.foldl_cons, write_first _ _ written]
  rfl

theorem separator_within (number : Nat) :
    (if number = 0 then (⟨text, indent, false⟩ : Printer)
      else if number % itemsPerLine = 0 then
        ((⟨text, indent, false⟩ : Printer).write ", ").newline.write "    "
      else (⟨text, indent, false⟩ : Printer).write ", ") =
      ⟨text ++ separator indent number, indent, false⟩ := by
  unfold separator
  split
  · simp
  · split
    · rw [write_within, newline_any, write_first _ _ (by decide)]
      simp [String.append_assoc]
    · exact write_within _ _ _

theorem items_within (number : Nat) (items : List String) :
    (⟨text, indent, false⟩ : Printer).items number items =
      ⟨text ++ itemsText indent number items, indent, false⟩ := by
  induction items generalizing text number with
  | nil => simp [Printer.items, itemsText]
  | cons item rest induction =>
      rw [Printer.items, separator_within, write_within, induction, itemsText]
      simp only [String.append_assoc]

theorem declaration_first (type : Scalar) (names : List String) :
    (⟨text, indent, true⟩ : Printer).declaration type names =
      ⟨text ++ declarationText indent type names, indent, true⟩ := by
  unfold declaration declarationText
  split
  · simp
  · have named : type.cName ≠ "" := by cases type <;> decide
    rw [writeAll, List.foldl_cons, write_first _ _ named, List.foldl_cons, write_within,
      List.foldl_nil, items_within, line, writeAll_within, newline_any]
    simp [String.append_assoc]

theorem declarations_first (types : List Scalar) (names : Scalar → List String) :
    types.foldl (fun printer type => printer.declaration type (names type))
        (⟨text, indent, true⟩ : Printer) =
      ⟨text ++ String.join (types.map fun type => declarationText indent type (names type)),
        indent, true⟩ := by
  induction types generalizing text with
  | nil => simp
  | cons type rest induction =>
      rw [List.foldl_cons, declaration_first, induction]
      simp [String.append_assoc]

end Printer

/-! ## The parts of a function -/

namespace Function

variable (function : Function) (spelling : Spelling)

def layout : String :=
  "static " ++ resultName function.result ++ " " ++ function.symbol ++ "(" ++
    paramsText (function.paramVariables spelling) ++ ") \x7b\n" ++
    declarationsText Printer.step (function.localVariables spelling) ++
    "  FUNC_PROLOGUE;\n" ++
    declarationsText Printer.step (function.slotVariables spelling) ++
    function.bodyText spelling

theorem params_within (text : String) :
    (if (function.params.zip (spelling.map (·.2))).isEmpty then
        (⟨text, 0, false⟩ : Printer).write "void"
      else (⟨text, 0, false⟩ : Printer).items 0
        ((function.params.zip (spelling.map (·.2))).map fun ((type, _), symbol) =>
          type.cName ++ " " ++ symbol)) =
      ⟨text ++ paramsText (function.paramVariables spelling), 0, false⟩ := by
  unfold paramsText paramVariables placeVariables
  rw [List.isEmpty_map]
  split
  · exact Printer.write_within _ _ _
  · rw [Printer.items_within, List.map_map]
    rfl

theorem localVariables_declarators (type : Scalar) :
    ((function.localVariables spelling).filter (·.type = type)).map Variable.declarator =
      ((function.locals.zip ((spelling.map (·.2)).drop function.params.length)).filter
        (·.1.1 = type)).map fun (_, symbol) => symbol ++ " = 0" := by
  rw [localVariables, placeVariables, List.filter_map, List.map_map]
  rfl

theorem slotVariables_declarators (type : Scalar) :
    ((function.slotVariables spelling).filter (·.type = type)).map Variable.declarator =
      (function.slotsOf type).map spelling.slot := by
  have part : ∀ other : Scalar,
      (((function.slotsOf other).map fun slot =>
        (⟨.slot slot, other, spelling.slot slot, false⟩ : Variable)).filter (·.type = type)).map
          Variable.declarator =
        if other = type then (function.slotsOf other).map spelling.slot else [] := by
    intro other
    rw [List.filter_map, List.map_map]
    split
    · next same =>
        rw [List.filter_eq_self.mpr fun _ _ => by simpa using same]
        rfl
    · next different =>
        rw [List.filter_eq_nil_iff.mpr fun _ _ => by simpa using different]
        rfl
  cases type <;>
    simp [slotVariables, Scalar.all, List.filter_append, List.map_append, part]

theorem bodyText_behind (before : String) :
    (match function.returned with
      | none => ((⟨before, Printer.step, true⟩ : Printer).stmts spelling function.body).line
          ["FUNC_EPILOGUE;"]
      | some slot => (((⟨before, Printer.step, true⟩ : Printer).stmts spelling function.body).line
          ["FUNC_EPILOGUE;"]).line ["return ", spelling.slot slot, ";"]).closeBrace.newline.text =
      before ++ function.bodyText spelling := by
  have fresh : (⟨before, Printer.step, true⟩ : Printer) =
      (⟨"", Printer.step, true⟩ : Printer).after before := by
    simp [Printer.after]
  unfold bodyText
  rw [fresh]
  cases function.returned with
  | none =>
      simp only [Printer.after_stmts, Printer.after_line, Printer.after_closeBrace,
        Printer.after_newline]
      rfl
  | some slot =>
      simp only [Printer.after_stmts, Printer.after_line, Printer.after_closeBrace,
        Printer.after_newline]
      rfl

theorem textWith_eq : function.textWith spelling = function.layout spelling := by
  unfold textWith
  have empty : ({} : Printer) = ⟨"", 0, false⟩ := rfl
  dsimp only
  rw [empty, Printer.writeAll_within, params_within, Printer.write_within,
    Printer.openBrace_within, Printer.declarations_first, Printer.line_first _ _ (by decide),
    Printer.declarations_first, Nat.zero_add]
  refine (function.bodyText_behind spelling _).trans ?_
  have prologue : spaces Printer.step ++ "FUNC_PROLOGUE;" ++ "\n" = "  FUNC_PROLOGUE;\n" := by
    decide
  unfold layout declarationsText
  simp only [localVariables_declarators, slotVariables_declarators, ← prologue]
  simp [String.append_assoc]

end Function

/-! ## What statements show of a spelling -/

def Spelling.Agree (spelling other : Spelling) (idents : List Ident) : Prop :=
  ∀ ident ∈ idents, spelling.symbol ident = other.symbol ident

section

variable {spelling other : Spelling}

theorem Spelling.Agree.mono {few many : List Ident} (agree : spelling.Agree other many)
    (subset : few ⊆ many) : spelling.Agree other few := fun ident member =>
  agree ident (subset member)

theorem Spelling.Agree.slot {idents : List Ident} (agree : spelling.Agree other idents)
    {slot : Slot} (member : .slot slot ∈ idents) : spelling.slot slot = other.slot slot :=
  agree _ member

theorem exprText_agree {value : Expr} (agree : spelling.Agree other value.idents) :
    exprText spelling value = exprText other value := by
  unfold exprText
  cases value with
  | literal | global | size => rfl
  | named name => exact agree _ List.mem_cons_self
  | unary _ operand | load _ _ operand _ | grow _ operand =>
      have same : spelling.slot operand = other.slot operand := agree.slot List.mem_cons_self
      dsimp only
      rw [same]
  | binary _ left right =>
      have sameLeft : spelling.slot left = other.slot left := agree.slot (by simp [Expr.idents])
      have sameRight : spelling.slot right = other.slot right := agree.slot (by simp [Expr.idents])
      dsimp only
      rw [sameLeft, sameRight]
  | select condition first second =>
      have sameCondition : spelling.slot condition = other.slot condition :=
        agree.slot (by simp [Expr.idents])
      have sameFirst : spelling.slot first = other.slot first := agree.slot (by simp [Expr.idents])
      have sameSecond : spelling.slot second = other.slot second :=
        agree.slot (by simp [Expr.idents])
      dsimp only
      rw [sameCondition, sameFirst, sameSecond]

theorem slots_agree {slots : List Slot} (agree : spelling.Agree other (slotIdents slots)) :
    slots.map spelling.slot = slots.map other.slot :=
  List.map_congr_left fun _ member => agree _ (List.mem_map_of_mem member)

theorem jumpText_agree {jump : Jump} (agree : spelling.Agree other jump.idents) :
    jumpText spelling jump = jumpText other jump := by
  have isTarget : spelling.label jump.target = other.label jump.target :=
    agree _ (by simp [Jump.idents])
  have areCopies : ∀ copy ∈ jump.copies, spelling.slot copy.1 = other.slot copy.1 ∧
      spelling.slot copy.2 = other.slot copy.2 := by
    intro copy member
    refine ⟨agree _ ?_, agree _ ?_⟩ <;>
      exact List.mem_append_left _ (List.mem_flatMap.mpr ⟨copy, member, by simp⟩)
  unfold jumpText
  rw [isTarget]
  congr 4
  apply List.map_congr_left
  intro copy member
  rcases copy with ⟨target, source⟩
  dsimp only
  rw [(areCopies _ member).1, (areCopies _ member).2]

theorem binaryText_agree {opcode : Opcode} {target left right : Slot}
    (agree : spelling.Agree other [.slot target, .slot left, .slot right]) :
    binaryText spelling opcode target left right = binaryText other opcode target left right := by
  have sameTarget : spelling.slot target = other.slot target := agree.slot (by simp)
  have sameLeft : spelling.slot left = other.slot left := agree.slot (by simp)
  have sameRight : spelling.slot right = other.slot right := agree.slot (by simp)
  unfold binaryText
  rw [sameTarget, sameLeft, sameRight]

theorem targetText_agree {target : Option Slot}
    (agree : spelling.Agree other (slotIdents target.toList)) :
    targetText spelling target = targetText other target := by
  cases target with
  | none => rfl
  | some target =>
      have same : spelling.slot target = other.slot target := agree.slot List.mem_cons_self
      unfold targetText
      dsimp only
      rw [same]

theorem argumentsText_agree {arguments : List Slot}
    (agree : spelling.Agree other (slotIdents arguments)) :
    argumentsText spelling arguments = argumentsText other arguments := by
  rw [argumentsText, argumentsText, slots_agree agree]

namespace Printer

theorem switchCases_agree (printer : Printer) (number : Nat) {cases : List Jump}
    (agree : spelling.Agree other (cases.flatMap Jump.idents)) :
    switchCases spelling printer number cases = switchCases other printer number cases := by
  induction cases generalizing printer number with
  | nil => rfl
  | cons jump rest induction =>
      rw [List.flatMap_cons] at agree
      have sameJump : jumpText spelling jump = jumpText other jump :=
        jumpText_agree (agree.mono (List.subset_append_left _ _))
      rw [switchCases, switchCases, sameJump]
      exact induction _ _ (agree.mono (List.subset_append_right _ _))

mutual

theorem stmt_agree (printer : Printer) {stmt : Stmt} (agree : spelling.Agree other stmt.idents) :
    printer.stmt spelling stmt = printer.stmt other stmt := by
  match stmt with
  | .assign target value =>
      have sameTarget : spelling.slot target = other.slot target := agree.slot List.mem_cons_self
      have sameValue : exprText spelling value = exprText other value :=
        exprText_agree (agree.mono (List.subset_cons_self _ _))
      cases value with
      | binary opcode left right =>
          simp only [Printer.stmt, binaryText_agree agree]
      | _ => simp only [Printer.stmt, sameTarget, sameValue]
  | .setNamed name value =>
      have sameName : spelling.named name = other.named name := agree _ List.mem_cons_self
      have sameValue : spelling.slot value = other.slot value := agree.slot (by simp [Stmt.idents])
      simp only [Printer.stmt, sameName, sameValue]
  | .setGlobal _ value =>
      have sameValue : spelling.slot value = other.slot value := agree.slot List.mem_cons_self
      simp only [Printer.stmt, sameValue]
  | .store _ _ address _ value =>
      have sameAddress : spelling.slot address = other.slot address :=
        agree.slot (by simp [Stmt.idents, slotIdents])
      have sameValue : spelling.slot value = other.slot value :=
        agree.slot (by simp [Stmt.idents, slotIdents])
      simp only [Printer.stmt, sameAddress, sameValue]
  | .fill .. | .copy .. => simp only [Printer.stmt, argumentsText_agree agree]
  | .call target _ arguments =>
      rw [Stmt.idents, slotIdents, List.map_append] at agree
      have sameTarget : targetText spelling target = targetText other target :=
        targetText_agree (agree.mono (List.subset_append_left _ _))
      have sameArguments : argumentsText spelling arguments = argumentsText other arguments :=
        argumentsText_agree (agree.mono (List.subset_append_right _ _))
      simp only [Printer.stmt, sameTarget, sameArguments]
  | .callIndirect target _ _ _ position arguments =>
      rw [Stmt.idents, slotIdents, List.map_append] at agree
      have sameTarget : targetText spelling target = targetText other target :=
        targetText_agree (agree.mono (List.subset_append_left _ _))
      have sameArguments : argumentsText spelling (position :: arguments) =
          argumentsText other (position :: arguments) :=
        argumentsText_agree (agree.mono (List.subset_append_right _ _))
      simp only [Printer.stmt, sameTarget, sameArguments]
  | .trap => rfl
  | .jump jump => simp only [Printer.stmt, jumpText_agree agree]
  | .jumpIf condition jump =>
      have sameCondition : spelling.slot condition = other.slot condition :=
        agree.slot List.mem_cons_self
      have sameJump : jumpText spelling jump = jumpText other jump :=
        jumpText_agree (agree.mono (List.subset_cons_self _ _))
      simp only [Printer.stmt, sameCondition, sameJump]
  | .switch position cases otherwise =>
      have samePosition : spelling.slot position = other.slot position :=
        agree.slot List.mem_cons_self
      have behind := agree.mono (List.subset_cons_self _ _)
      have sameOtherwise : jumpText spelling otherwise = jumpText other otherwise :=
        jumpText_agree (behind.mono (List.subset_append_right _ _))
      simp only [Printer.stmt, samePosition, sameOtherwise,
        switchCases_agree _ _ (behind.mono (List.subset_append_left _ _))]
  | .label label =>
      have sameLabel : spelling.label label = other.label label := agree _ List.mem_cons_self
      simp only [Printer.stmt, sameLabel]
  | .ifThen condition body =>
      have sameCondition : spelling.slot condition = other.slot condition :=
        agree.slot List.mem_cons_self
      simp only [Printer.stmt, sameCondition,
        stmts_agree _ (agree.mono (List.subset_cons_self _ _))]
  | .ifThenElse condition thenBody elseBody =>
      have sameCondition : spelling.slot condition = other.slot condition :=
        agree.slot List.mem_cons_self
      have behind := agree.mono (List.subset_cons_self _ _)
      simp only [Printer.stmt, sameCondition,
        stmts_agree _ (behind.mono (List.subset_append_left _ _)),
        stmts_agree _ (behind.mono (List.subset_append_right _ _))]

theorem stmts_agree (printer : Printer) {stmts : List Stmt}
    (agree : spelling.Agree other (Stmt.identsOfList stmts)) :
    printer.stmts spelling stmts = printer.stmts other stmts := by
  match stmts with
  | [] => rfl
  | first :: rest =>
      rw [Stmt.identsOfList_cons] at agree
      rw [Printer.stmts, Printer.stmts,
        stmt_agree printer (agree.mono (List.subset_append_left _ _))]
      exact stmts_agree _ (agree.mono (List.subset_append_right _ _))

end

end Printer

/-- The statements of a function show only the symbols of what they refer to. -/
theorem Function.bodyText_agree {function : Function}
    (agree : spelling.Agree other
      (Emission.Scope.bodyIdents (function.body, function.returned))) :
    function.bodyText spelling = function.bodyText other := by
  unfold bodyText
  rw [Printer.stmts_agree _ (agree.mono (List.subset_append_left _ _))]
  have returned := agree.mono (List.subset_append_right _ _)
  cases isReturned : function.returned with
  | none => rfl
  | some slot =>
      rw [isReturned] at returned
      have same : spelling.slot slot = other.slot slot := returned.slot List.mem_cons_self
      dsimp only
      rw [same]

end

end WasmLowering.C
