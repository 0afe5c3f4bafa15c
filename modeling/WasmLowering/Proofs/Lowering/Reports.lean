import WasmLowering.Proofs.Lowering.Symbols

/-! Every failure of writing a module is reported.

An import without an entity is the one failure that nothing checks for. It can only come
from the imports themselves, and in a decoded module each of them has its entity. -/

namespace WasmLowering.Emission

variable {σ α β : Type}

def Reported (result : Except EmitError α) : Prop := ∀ entry, result ≠ .error (.untied entry)

namespace Reported

theorem ok (value : α) : Reported (.ok value) := nofun

theorem unsupported (what : Unsupported) :
    Reported (WasmLowering.unsupported what : Except EmitError α) := nofun

theorem defect (what : Defect) : Reported (.error (.defect what) : Except EmitError α) := nofun

theorem promised {condition : Prop} [Decidable condition] (otherwise : Defect) :
    Reported (WasmLowering.promised condition otherwise) := by
  unfold WasmLowering.promised require
  split
  · exact ok ()
  · exact defect otherwise

theorem found (value : Option α) (otherwise : Defect) :
    Reported (WasmLowering.found value otherwise) := by
  cases value with
  | none => exact defect otherwise
  | some value => exact ok value

theorem bind {first : Except EmitError α} {next : α → Except EmitError β}
    (given : Reported first) (later : ∀ value, first = .ok value → Reported (next value)) :
    Reported (first >>= next) := by
  intro entry isUntied
  cases first with
  | error error => exact given entry (by cases isUntied; rfl)
  | ok value => exact later value rfl entry isUntied

theorem map {result : Except EmitError α} {change : α → β} (given : Reported result) :
    Reported (result.map change) := by
  cases result with
  | error error => exact fun entry isUntied => given entry (by cases isUntied; rfl)
  | ok value => exact ok _

theorem mapM {change : α → Except EmitError β} {items : List α}
    (each : ∀ item ∈ items, Reported (change item)) : Reported (items.mapM change) := by
  induction items with
  | nil => exact ok []
  | cons item rest induction =>
      rw [List.mapM_cons]
      apply (each item List.mem_cons_self).bind
      intro first _
      apply (induction fun other member => each other (List.mem_cons_of_mem _ member)).bind
      exact fun others _ => ok _

theorem forM {check : α → Except EmitError PUnit} {items : List α}
    (each : ∀ item, Reported (check item)) : Reported (items.forM check) := by
  induction items with
  | nil => exact ok _
  | cons item rest induction => exact (each item).bind fun _ _ => induction

theorem of_gives {result : Except EmitError α} {post : α → Prop}
    (given : Gives False result post) : Reported result := by
  intro entry isUntied
  subst isUntied
  rcases given with impossible | ⟨what, isUnsupported⟩
  · exact impossible
  · cases isUnsupported

theorem scalarOf (type : ValueType) : Reported (Emission.scalarOf type) :=
  of_gives (scalarOf_gives type)

theorem mangledType (type : ValueType) : Reported (Symbol.mangledType type) :=
  of_gives (mangledType_gives type)

theorem numberOf (value : Constant) : Reported (Emission.numberOf value) := by
  unfold Emission.numberOf
  split
  · exact ok _
  · exact unsupported _

theorem resultOf (types : List ValueType) : Reported (Emission.resultOf types) :=
  of_gives (resultOf_gives types)

theorem prototypeOf (signature : Signature) : Reported (Emission.prototypeOf signature) :=
  of_gives (prototypeOf_gives signature)

theorem referenceName (what : String) (reference : Reference) :
    Reported (Emission.referenceName what reference) := by
  cases reference with
  | index => exact defect _
  | name => exact ok _

theorem external (symbols : EntitySymbols) (kind : ExternKind) (name : String) :
    Reported (symbols.external kind name) :=
  (found _ _).bind fun _ _ => ok _

end Reported

def Reports (action : StateT σ (Except EmitError) α) : Prop := ∀ state, Reported (action state)

namespace Reports

theorem pure (value : α) : Reports (Pure.pure value : StateT σ (Except EmitError) α) :=
  fun _ => .ok _

theorem bind {first : StateT σ (Except EmitError) α} {next : α → StateT σ (Except EmitError) β}
    (given : Reports first) (later : ∀ value, Reports (next value)) : Reports (first >>= next) :=
  fun state => (given state).bind fun result _ => later result.1 result.2

theorem lift {result : Except EmitError α} (given : Reported result) :
    Reports (liftM result : StateT σ (Except EmitError) α) :=
  fun state => given.bind fun value _ => .ok (value, state)

theorem get : Reports (MonadState.get : StateT σ (Except EmitError) σ) := fun _ => .ok _

theorem set (next : σ) : Reports (MonadStateOf.set next : StateT σ (Except EmitError) PUnit) :=
  fun _ => .ok _

theorem modify (change : σ → σ) :
    Reports (modify change : StateT σ (Except EmitError) PUnit) :=
  fun _ => .ok _

theorem mapM {change : α → StateT σ (Except EmitError) β} {items : List α}
    (each : ∀ item ∈ items, Reports (change item)) : Reports (items.mapM change) := by
  induction items with
  | nil => exact pure []
  | cons item rest induction =>
      rw [List.mapM_cons]
      apply (each item List.mem_cons_self).bind
      intro first
      apply (induction fun other member => each other (List.mem_cons_of_mem _ member)).bind
      exact fun others => pure _

end Reports

/-! ## The operand stack and labels -/

theorem need_reports (func : String) (count : Nat) : Reports (need func count) :=
  Reports.get.bind fun _ => .lift (.promised _)

theorem pop_reports (func : String) (count : Nat) : Reports (pop func count) :=
  Reports.get.bind fun _ => (Reports.lift (.promised _)).bind fun _ => .set _

theorem resetStack_reports (func : String) (height : Nat) : Reports (resetStack func height) :=
  Reports.get.bind fun _ => (Reports.lift (.promised _)).bind fun _ => .set _

theorem checkHeight_reports (func place : String) (expected : Nat) :
    Reports (checkHeight func place expected) :=
  Reports.get.bind fun _ => .lift (.promised _)

theorem push_reports (type : ValueType) : Reports (push type) := .modify _

theorem pushAll_reports (types : List ValueType) : Reports (pushAll types) := .modify _

theorem typeAt_reports (func : String) (operand : Nat) : Reports (typeAt func operand) :=
  (need_reports func _).bind fun _ => Reports.get.bind fun _ => .pure _

theorem slot_reports (depth : Nat) (type : ValueType) : Reports (slot depth type) :=
  (Reports.lift (.mangledType type)).bind fun _ => (Reports.modify _).bind fun _ => .pure _

theorem top_reports (func : String) (operand : Nat) : Reports (top func operand) :=
  (typeAt_reports func operand).bind fun _ => Reports.get.bind fun _ => slot_reports _ _

theorem topAs_reports (func : String) (operand : Nat) (type : ValueType) :
    Reports (topAs func operand type) :=
  (need_reports func _).bind fun _ => Reports.get.bind fun _ => slot_reports _ _

theorem openLabel_reports (func : String) (isLoop : Bool) (head : BlockHead) :
    Reports (openLabel func isLoop head) :=
  Reports.get.bind fun _ => (Reports.lift (.promised _)).bind fun _ =>
    (Reports.set _).bind fun _ => .pure _

theorem closeLabel_reports (func : String) (opened : OpenLabel) :
    Reports (closeLabel func opened) :=
  (Reports.modify _).bind fun _ => (resetStack_reports func _).bind fun _ => pushAll_reports _

theorem labelStmts_reports (opened : OpenLabel) : Reports (labelStmts opened) :=
  Reports.get.bind fun _ => .pure _

theorem copies_reports (source target : Nat) (types : List ValueType) :
    Reports (copies source target types) := by
  induction types generalizing source target with
  | nil => exact .pure []
  | cons type rest induction =>
      unfold copies
      split
      · exact induction _ _
      · apply (slot_reports target type).bind
        intro left
        apply Reports.get.bind
        intro state
        apply (slot_reports source _).bind
        intro right
        exact (induction _ _).bind fun others => .pure _

theorem jumpTo_reports (func : String) (target : Reference) : Reports (jumpTo func target) := by
  have finds : Reports (findLabel func target) :=
    (Reports.lift (.referenceName _ _)).bind fun _ => Reports.get.bind fun _ => .lift (.found _ _)
  apply finds.bind
  intro opened
  apply (Reports.modify _).bind
  intro _
  apply Reports.get.bind
  intro state
  apply (Reports.lift (.promised _)).bind
  intro _
  exact (copies_reports _ _ _).bind fun pairs => .pure _

/-! ## Instructions -/

namespace Scope

variable (scope : Scope)

theorem external_reports (kind : ExternKind) (name : String) :
    Reports (scope.external kind name) :=
  .lift (.external _ _ _)

theorem memory_reports (reference : Reference) : Reports (scope.memory reference) :=
  (Reports.lift (.found _ _)).bind fun _ => scope.external_reports _ _

theorem place_reports (place : Reference) : Reports (scope.place place) :=
  (Reports.lift (.referenceName _ _)).bind fun _ =>
    (Reports.lift (.promised _)).bind fun _ => .pure _

theorem resultSlot_reports (depth : Nat) (results : List ValueType) :
    Reports (resultSlot depth results) := by
  cases results with
  | nil => exact .pure none
  | cons type _ => exact (slot_reports depth type).bind fun _ => .pure _

theorem operands_reports (count : Nat) : Reports (scope.operands count) := by
  induction count with
  | zero => exact .pure []
  | succ count induction =>
      exact (top_reports scope.name count).bind fun _ => induction.bind fun _ => .pure _

theorem operandsBelow_reports (count : Nat) : Reports (scope.operandsBelow count) := by
  induction count with
  | zero => exact .pure []
  | succ count induction =>
      exact (top_reports scope.name (count + 1)).bind fun _ => induction.bind fun _ => .pure _

theorem binarySlots_reports (form : C.BinaryForm) (type result : ValueType) :
    Reports (scope.binarySlots form type result) := by
  have asked := fun operand => top_reports scope.name operand
  have related : Reports (do
      let target ← topAs scope.name 1 result
      let left ← top scope.name 1
      return (target, left, ← top scope.name 0)) :=
    (topAs_reports _ _ _).bind fun _ => (asked 1).bind fun _ => (asked 0).bind fun _ => .pure _
  unfold binarySlots
  split
  · exact related
  · exact (Reports.lift (.promised _)).bind fun _ => related
  · apply (asked 1).bind
    intro left
    apply (Reports.lift (.promised _)).bind
    intro _
    exact (asked 0).bind fun _ => .pure _
  · exact (asked 1).bind fun _ => (asked 0).bind fun _ => .pure _

theorem binary_reports (opcode : Opcode) : Reports (scope.binary opcode) := by
  unfold binary
  split
  · exact .lift (.unsupported _)
  · apply (typeAt_reports _ _).bind
    intro type
    apply (scope.binarySlots_reports _ _ _).bind
    intro slots
    apply (pop_reports _ _).bind
    intro _
    exact (push_reports _).bind fun _ => .pure _

theorem unary_reports (opcode : Opcode) : Reports (scope.unary opcode) := by
  unfold unary
  split
  · exact .lift (.unsupported _)
  · apply (topAs_reports _ _ _).bind
    intro target
    apply (top_reports _ _).bind
    intro operand
    apply (pop_reports _ _).bind
    intro _
    exact (push_reports _).bind fun _ => .pure _

theorem load_reports (opcode : Opcode) (memory : Reference) (offset : UInt64) :
    Reports (scope.load opcode memory offset) := by
  apply (Reports.lift (.found _ _)).bind
  intro entity
  apply (topAs_reports _ _ _).bind
  intro target
  apply (scope.external_reports _ _).bind
  intro external
  apply (top_reports _ _).bind
  intro address
  apply (pop_reports _ _).bind
  intro _
  exact (push_reports _).bind fun _ => .pure _

theorem store_reports (opcode : Opcode) (memory : Reference) (offset : UInt64) :
    Reports (scope.store opcode memory offset) := by
  apply (scope.memory_reports _).bind
  intro external
  apply (top_reports _ _).bind
  intro address
  apply (top_reports _ _).bind
  intro value
  exact (pop_reports _ _).bind fun _ => .pure _

theorem call_reports (callee : Reference) : Reports (scope.call callee) := by
  apply (Reports.lift (.found _ _)).bind
  intro func
  apply (need_reports _ _).bind
  intro _
  apply Reports.get.bind
  intro state
  apply (resultSlot_reports _ _).bind
  intro target
  apply (scope.external_reports _ _).bind
  intro external
  apply (scope.operands_reports _).bind
  intro arguments
  apply (pop_reports _ _).bind
  intro _
  exact (pushAll_reports _).bind fun _ => .pure _

theorem callIndirect_reports (declaration : Declaration) (table : Reference) :
    Reports (scope.callIndirect declaration table) := by
  apply (Reports.lift (.found _ _)).bind
  intro entity
  dsimp only
  split
  · exact fun state entry isUntied => by cases isUntied
  apply (Reports.lift (.found _ _)).bind
  intro typeIndex
  apply (need_reports _ _).bind
  intro _
  apply Reports.get.bind
  intro state
  apply (resultSlot_reports _ _).bind
  intro target
  apply (scope.external_reports _ _).bind
  intro external
  apply (Reports.lift (.prototypeOf _)).bind
  intro prototype
  apply (top_reports _ _).bind
  intro position
  apply (scope.operandsBelow_reports _).bind
  intro arguments
  apply (pop_reports _ _).bind
  intro _
  exact (pushAll_reports _).bind fun _ => .pure _

theorem select_reports : Reports scope.select := by
  apply (typeAt_reports _ _).bind
  intro type
  apply (top_reports _ _).bind
  intro first
  apply (top_reports _ _).bind
  intro condition
  apply (top_reports _ _).bind
  intro second
  apply (pop_reports _ _).bind
  intro _
  exact (push_reports _).bind fun _ => .pure _

theorem const_reports (value : Constant) : Reports (scope.const value) := by
  apply (push_reports _).bind
  intro _
  apply (top_reports _ _).bind
  intro target
  exact (Reports.lift (.numberOf _)).bind fun _ => .pure _

theorem localGet_reports (place : Reference) : Reports (scope.localGet place) := by
  apply (Reports.lift (.promised _)).bind
  intro _
  apply (push_reports _).bind
  intro _
  apply (top_reports _ _).bind
  intro target
  exact (scope.place_reports _).bind fun _ => .pure _

theorem setPlace_reports (place : Reference) : Reports (scope.setPlace place) :=
  (scope.place_reports _).bind fun _ => (top_reports _ _).bind fun _ => .pure _

theorem globalGet_reports (place : Reference) : Reports (scope.globalGet place) := by
  apply (Reports.lift (.found _ _)).bind
  intro global
  apply (push_reports _).bind
  intro _
  apply (top_reports _ _).bind
  intro target
  exact (scope.external_reports _ _).bind fun _ => .pure _

theorem globalSet_reports (place : Reference) : Reports (scope.globalSet place) := by
  apply (Reports.lift (.found _ _)).bind
  intro global
  apply (scope.external_reports _ _).bind
  intro external
  apply (top_reports _ _).bind
  intro value
  exact (pop_reports _ _).bind fun _ => .pure _

theorem memoryGrow_reports (memory : Reference) : Reports (scope.memoryGrow memory) := by
  apply (Reports.lift (.found _ _)).bind
  intro entity
  apply (top_reports _ _).bind
  intro pages
  exact (scope.external_reports _ _).bind fun _ => .pure _

theorem memorySize_reports (memory : Reference) : Reports (scope.memorySize memory) := by
  apply (Reports.lift (.found _ _)).bind
  intro entity
  apply (push_reports _).bind
  intro _
  apply (top_reports _ _).bind
  intro target
  exact (scope.external_reports _ _).bind fun _ => .pure _

theorem memoryFill_reports (memory : Reference) : Reports (scope.memoryFill memory) := by
  apply (scope.memory_reports _).bind
  intro external
  apply (top_reports _ _).bind
  intro start
  apply (top_reports _ _).bind
  intro value
  apply (top_reports _ _).bind
  intro count
  exact (pop_reports _ _).bind fun _ => .pure _

theorem memoryCopy_reports (target source : Reference) :
    Reports (scope.memoryCopy target source) := by
  apply (Reports.lift (.found _ _)).bind
  intro targetEntity
  apply (Reports.lift (.found _ _)).bind
  intro sourceEntity
  apply (scope.external_reports _ _).bind
  intro targetExternal
  apply (scope.external_reports _ _).bind
  intro sourceExternal
  apply (top_reports _ _).bind
  intro start
  apply (top_reports _ _).bind
  intro origin
  apply (top_reports _ _).bind
  intro count
  exact (pop_reports _ _).bind fun _ => .pure _

theorem checkEnd_reports (construct : String) (opened : OpenLabel) (body : Lowered) :
    Reports (scope.checkEnd construct opened body) := by
  unfold checkEnd
  split
  · exact checkHeight_reports _ _ _
  · exact .pure _

theorem ending_reports {result : List C.Stmt → Lowered} (opened : OpenLabel) :
    Reports (do
      let label ← labelStmts opened
      closeLabel scope.name opened
      return result label) :=
  (labelStmts_reports _).bind fun _ => (closeLabel_reports _ _).bind fun _ => .pure _

mutual

theorem instr_reports (instr : Instr) : Reports (scope.instr instr) := by
  cases instr with
  | block head body =>
      apply (openLabel_reports _ _ _).bind
      intro opened
      apply (instrs_reports body).bind
      intro lowered
      exact (scope.checkEnd_reports _ _ _).bind fun _ => scope.ending_reports opened
  | loop head body =>
      apply (openLabel_reports _ _ _).bind
      intro opened
      apply (instrs_reports body).bind
      intro lowered
      exact (scope.checkEnd_reports _ _ _).bind fun _ => scope.ending_reports opened
  | ifElse head thenBody elseBody =>
      cases elseBody with
      | nil =>
          apply (top_reports _ _).bind
          intro condition
          apply (pop_reports _ _).bind
          intro _
          apply (openLabel_reports _ _ _).bind
          intro opened
          apply (instrs_reports thenBody).bind
          intro lowered
          exact (scope.checkEnd_reports _ _ _).bind fun _ => scope.ending_reports opened
      | cons first others =>
          apply (top_reports _ _).bind
          intro condition
          apply (pop_reports _ _).bind
          intro _
          apply (openLabel_reports _ _ _).bind
          intro opened
          apply (instrs_reports thenBody).bind
          intro thenPart
          apply (scope.checkEnd_reports _ _ _).bind
          intro _
          apply (resetStack_reports _ _).bind
          intro _
          apply (pushAll_reports _).bind
          intro _
          apply (instrs_reports (first :: others)).bind
          intro elsePart
          exact (scope.checkEnd_reports _ _ _).bind fun _ => scope.ending_reports opened
  | br target => exact (jumpTo_reports _ _).bind fun _ => .pure _
  | brIf target =>
      apply (top_reports _ _).bind
      intro condition
      exact (pop_reports _ _).bind fun _ => (jumpTo_reports _ _).bind fun _ => .pure _
  | brTable targets otherwise =>
      apply (top_reports _ _).bind
      intro position
      apply (pop_reports _ _).bind
      intro _
      apply (Reports.mapM fun target _ => jumpTo_reports _ target).bind
      intro cases
      exact (jumpTo_reports _ _).bind fun _ => .pure _
  | leave => exact (jumpTo_reports _ _).bind fun _ => .pure _
  | drop => exact (pop_reports _ _).bind fun _ => .pure _
  | localSet place =>
      exact (scope.setPlace_reports place).bind fun _ => (pop_reports _ _).bind fun _ => .pure _
  | localTee place => exact (scope.setPlace_reports place).bind fun _ => .pure _
  | binary opcode => exact scope.binary_reports opcode
  | compare opcode => exact scope.binary_reports opcode
  | convert opcode => exact scope.unary_reports opcode
  | unary opcode => exact scope.unary_reports opcode
  | unreachable => exact .pure _
  | nop => exact .pure _
  | call callee => exact scope.call_reports callee
  | callIndirect declaration table => exact scope.callIndirect_reports declaration table
  | const value => exact scope.const_reports value
  | select => exact scope.select_reports
  | globalGet place => exact scope.globalGet_reports place
  | globalSet place => exact scope.globalSet_reports place
  | localGet place => exact scope.localGet_reports place
  | load opcode memory align offset => exact scope.load_reports opcode memory offset
  | store opcode memory align offset => exact scope.store_reports opcode memory offset
  | memoryGrow memory => exact scope.memoryGrow_reports memory
  | memorySize memory => exact scope.memorySize_reports memory
  | memoryFill memory => exact scope.memoryFill_reports memory
  | memoryCopy target source => exact scope.memoryCopy_reports target source
  | _ => exact .lift (.unsupported _)

theorem instrs_reports (instrs : List Instr) : Reports (scope.instrs instrs) := by
  cases instrs with
  | nil => exact .pure _
  | cons first rest =>
      apply (instr_reports first).bind
      intro lowered
      split
      · exact (instrs_reports rest).bind fun _ => .pure _
      · exact .pure _

end

theorem body_reports : Reports scope.body := by
  apply (openLabel_reports _ _ _).bind
  intro opened
  apply (scope.instrs_reports _).bind
  intro lowered
  have behind : Reports (do
      let label ← labelStmts opened
      closeLabel scope.name opened
      let returned ← resultSlot ((← get).height - 1) scope.func.results
      return (lowered.stmts ++ label, returned)) := by
    apply (labelStmts_reports _).bind
    intro label
    apply (closeLabel_reports _ _).bind
    intro _
    apply Reports.get.bind
    intro state
    exact (resultSlot_reports _ _).bind fun _ => .pure _
  dsimp only
  split
  · exact (checkHeight_reports _ _ _).bind fun _ => behind
  · exact behind

end Scope

/-! ## Functions -/

theorem namedParams_reported (func : Func) : Reported (namedParams func) := by
  apply Reported.mapM
  intro param _
  exact (Reported.promised _).bind fun _ _ => (Reported.scalarOf _).bind fun _ _ => .ok _

theorem namedLocals_reported (func : Func) : Reported (namedLocals func) := by
  apply (Reported.forM _).bind
  · intro _ _
    apply (Reported.mapM _).bind
    · exact fun grouped _ => .ok _
    · intro scalar _
      apply Reported.mapM
      exact fun local' _ => (Reported.promised _).bind fun _ _ => .ok _
  · intro type
    split
    · exact .unsupported _
    · exact .ok _

theorem lowerFunc_reported (module : Module) (symbols : EntitySymbols) (func : Func) :
    Reported (lowerFunc module symbols func) := by
  apply (Reported.external _ _ _).bind
  intro external _
  apply (Reported.resultOf _).bind
  intro result _
  apply (namedParams_reported func).bind
  intro params _
  apply (namedLocals_reported func).bind
  intro locals _
  exact (Scope.body_reports _ _).bind fun _ _ => .ok _

/-! ## Imports and exports -/

theorem importObject_reports {module : Module} {entry : Import} {number : Nat}
    (inside : ∀ entity, EntityKind.ofExtern? entry.kind = some entity →
      number < module.entityCount entity) : Reports (importObject module entry number) := by
  have gives : Gives False (importedEntity module entry number) _ := importedEntity_gives inside
  intro symbols
  apply (Reports.lift (.of_gives gives) symbols).bind
  rintro ⟨⟨name, field, type⟩, after⟩ isEntity
  rcases lift_eq_ok isEntity with ⟨isEntity, _⟩
  rw [isEntity] at gives
  have reports : Reports (do
      set (← (← MonadState.get).defineImport entry.kind name
        (Symbol.mangle (Text.bytes entry.moduleName) ++ field))
      return ⟨entry, Symbol.mangle (Text.bytes entry.moduleName) ++ field, ← type⟩ :
        Emit C.ImportedObject) := by
    apply Reports.get.bind
    intro symbols
    apply (Reports.lift ((Reported.promised _).bind fun _ _ => .ok _)).bind
    intro later
    apply (Reports.set _).bind
    intro _
    exact (Reports.lift (.of_gives gives.2)).bind fun _ => .pure _
  exact reports after

theorem Reported.funcSymbol (name : List UInt8) (signature : Signature) :
    Reported (Symbol.funcSymbol name signature) :=
  .of_gives (funcSymbol_gives name signature)

theorem Reported.globalSymbol (name : List UInt8) (type : ValueType) :
    Reported (Symbol.globalSymbol name type) :=
  .of_gives (globalSymbol_gives name type)

theorem exportedEntity_reported (module : Module) (entry : Export) :
    Reported (exportedEntity module entry) := by
  unfold exportedEntity
  split
  · apply (Reported.found _ _).bind
    intro func _
    apply (Reported.funcSymbol _ _).bind
    intro symbol _
    exact (Reported.prototypeOf _).bind fun _ _ => .ok _
  · apply (Reported.found _ _).bind
    intro global _
    apply (Reported.globalSymbol _ _).bind
    intro symbol _
    exact (Reported.scalarOf _).bind fun _ _ => .ok _
  · exact (Reported.found _ _).bind fun _ _ => .ok _
  · exact (Reported.found _ _).bind fun _ _ => .ok _
  · exact .unsupported _

theorem exportObject_reports (module : Module) (entry : Export) :
    Reports (exportObject module entry) :=
  (Reports.lift (exportedEntity_reported _ _)).bind fun _ => (Reports.modify _).bind fun _ => .pure _

/-! ## The other parts of a program -/

theorem external_reports (kind : ExternKind) (name : String) : Reports (external kind name) :=
  Reports.get.bind fun _ => .lift (.external _ _ _)

theorem define_reports (kind : ExternKind) (name : String) : Reports (define kind name) := by
  apply Reports.get.bind
  intro symbols
  apply (Reports.lift ((Reported.promised _).bind fun _ _ => .ok _)).bind
  intro defined
  exact (Reports.set _).bind fun _ => .pure _

theorem typeEntry_reported (type : FuncType) : Reported (typeEntry type) := by
  apply (Reported.mapM fun type _ => .scalarOf type).bind
  intro params _
  exact (Reported.mapM fun type _ => .scalarOf type).bind fun _ _ => .ok _

theorem declareFunc_reports (func : Func) : Reports (declareFunc func) :=
  (define_reports _ _).bind fun _ => (Reports.lift (.prototypeOf _)).bind fun _ => .pure _

theorem declareGlobal_reports (global : Global) : Reports (declareGlobal global) :=
  (Reports.lift (.scalarOf _)).bind fun _ => (define_reports _ _).bind fun _ => .pure _

theorem initial_reports (instrs : List Instr) : Reports (initial instrs) := by
  unfold initial
  split
  · exact (Reports.lift (.numberOf _)).bind fun _ => .pure _
  · apply (Reports.lift (.referenceName _ _)).bind
    intro name
    exact (external_reports _ _).bind fun _ => .pure _
  · exact .lift (.unsupported _)
  · exact fun _ => .defect _

theorem globalValue_reports (global : Global) : Reports (globalValue global) := by
  apply (Reports.lift (.promised _)).bind
  intro _
  apply (external_reports _ _).bind
  intro external
  exact (initial_reports _).bind fun _ => .pure _

theorem memoryAllocation_reports (module : Module) : Reports (memoryAllocation module) := by
  unfold memoryAllocation
  split
  · exact .pure _
  · split
    · exact (external_reports _ _).bind fun _ => .pure _
    · exact .pure _

theorem tableAllocation_reports (module : Module) : Reports (tableAllocation module) := by
  unfold tableAllocation
  split
  · exact .pure _
  · split
    · exact (external_reports _ _).bind fun _ => .pure _
    · exact .pure _

theorem dataArray_reports (segment : DataSegment) (position : Nat) :
    Reports (dataArray segment position) :=
  Reports.get.bind fun _ => (Reports.set _).bind fun _ => .pure _

theorem dataCopy_reports (module : Module) (segment : DataSegment) (source : C.DataArray) :
    Reports (dataCopy module segment source) := by
  apply (Reports.lift (.found _ _)).bind
  intro memory
  apply (external_reports _ _).bind
  intro external
  exact (initial_reports _).bind fun _ => .pure _

theorem element_reports (module : Module) (reference : Reference) :
    Reports (element module reference) := by
  apply (Reports.lift (.found _ _)).bind
  intro func
  apply (Reports.lift (.found _ _)).bind
  intro typeIndex
  exact (external_reports _ _).bind fun _ => .pure _

theorem elementCopy_reports (module : Module) (segment : ElementSegment) :
    Reports (elementCopy module segment) := by
  apply (Reports.lift (.found _ _)).bind
  intro table
  apply (external_reports _ _).bind
  intro external
  apply (initial_reports _).bind
  intro offset
  exact (Reports.mapM fun reference _ => element_reports module reference).bind fun _ => .pure _

theorem startFunc_reports (module : Module) (reference : Reference) :
    Reports (startFunc module reference) :=
  (Reports.lift (.found _ _)).bind fun _ => external_reports _ _

theorem program_reports {module : Module}
    (tied : ∀ kind entity, EntityKind.ofExtern? kind = some entity →
      (module.importsOf kind).length ≤ module.entityCount entity) : Reports (program module) := by
  apply (Reports.mapM fun entry member => importObject_reports fun entity isEntity =>
    numberedImports_lt member (tied _ entity isEntity)).bind
  intro imports
  apply (Reports.mapM fun entry _ => exportObject_reports module entry).bind
  intro exports
  apply (Reports.mapM fun type _ => .lift (typeEntry_reported type)).bind
  intro types
  apply (Reports.mapM fun func _ => declareFunc_reports func).bind
  intro prototypes
  apply (Reports.mapM fun global _ => declareGlobal_reports global).bind
  intro globals
  apply (Reports.mapM fun global _ => globalValue_reports global).bind
  intro globalValues
  apply (Reports.mapM fun memory _ => define_reports _ _).bind
  intro memories
  apply (Reports.mapM fun table _ => define_reports _ _).bind
  intro tables
  apply (Reports.mapM fun segment _ => dataArray_reports _ _).bind
  intro dataArrays
  apply (memoryAllocation_reports module).bind
  intro memoryAllocation
  apply (Reports.mapM fun segment _ => dataCopy_reports module _ _).bind
  intro dataCopies
  apply (tableAllocation_reports module).bind
  intro tableAllocation
  apply (Reports.mapM fun segment _ => elementCopy_reports module segment).bind
  intro elementCopies
  apply Reports.get.bind
  intro symbols
  apply (Reports.mapM fun func _ => .lift (lowerFunc_reported module symbols func)).bind
  intro functions
  apply (Reports.mapM fun object _ => external_reports _ _).bind
  intro exportTargets
  exact (Reports.mapM fun start _ => startFunc_reports module start).bind fun _ => .pure _

theorem emit_reported {module : Module}
    (tied : ∀ kind entity, EntityKind.ofExtern? kind = some entity →
      (module.importsOf kind).length ≤ module.entityCount entity) : Reported module.emit := by
  apply (Reported.of_gives (checkModule_gives module)).bind
  exact fun _ _ => (program_reports tied {}).map

end WasmLowering.Emission
