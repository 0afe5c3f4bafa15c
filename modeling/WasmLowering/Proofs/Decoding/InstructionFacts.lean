import WasmLowering.Proofs.Decoding.Indexed

/-! Facts about single instructions in decoded functions.

What is known of all instructions in code that is read is known of all instructions of a
decoded module, however deep they stand. One such fact is that loads and stores come from
the classes of opcodes that access memory. -/

namespace WasmLowering

namespace Binary.Decoder

open Instr (Each)

theorem Imported.Fresh.each {property : Instr → Prop} {types : List FuncType} {func : Func}
    (fresh : Fresh types (.func func)) : Each property func.body := by
  rcases fresh with ⟨declaration, _, rfl⟩
  exact nofun

def EachBody (property : Instr → Prop) (module : Module) : Prop :=
  ∀ func ∈ module.funcs, Each property func.body

theorem sectionContents_each {property : Instr → Prop}
    (holds : ∀ types instr, Instr.Known types instr → property instr) :
    Kept (EachBody property) := by
  intro id progress each
  cases id with
  | custom =>
      refine .bind' fun title => .ite ?_ (.pure each)
      refine .bind' fun reader => .pure fun func member => ?_
      rcases (NameSection.apply_sameContents _ _).func member with ⟨original, isOriginal, _, isBody⟩
      exact isBody ▸ each original isOriginal
  | imports =>
      refine .bind (Yields.counted (importEntry_fresh _)) fun entries known => .pure ?_
      intro func member
      exact (Module.mem_funcs_addImports known.2 member).elim (each func) Imported.Fresh.each
  | function =>
      refine .bind (Yields.counted fun _ => func_fresh _) fun funcs known => .pure ?_
      exact List.forall_mem_append.mpr ⟨each, fun func member => (known.2 func member).each⟩
  | code =>
      refine .bind' fun count => .ite (.throw _ _) ?_
      refine .bind (Yields.repeated (sizedBody_known _) _ _) fun bodies known => .pure ?_
      intro func member
      rcases Module.mem_funcs_addBodies member with member | ⟨_, _, body, isBody, rfl⟩
      · exact each func member
      · exact (known.2 body isBody).instrs.mono (holds _)
  | exports => exact .bind' fun count => .bind' fun result => .pure each
  | _ => exact .bind' fun items => .pure each

end Binary.Decoder

/-- What is known of all code that is read holds in all functions of a module. -/
theorem Binary.decode_each {property : Instr → Prop}
    (holds : ∀ types instr, Instr.Known types instr → property instr)
    {bytes : List UInt8} {module : Module} (accepted : decode bytes = .ok module) :
    ∀ func ∈ module.funcs, Instr.Each property func.body :=
  decode_keeps nofun (Decoder.sectionContents_each holds) accepted

theorem Binary.decode_access {bytes : List UInt8} {module : Module}
    (accepted : decode bytes = .ok module) :
    ∀ func ∈ module.funcs, Instr.Each Instr.AccessKnown func.body :=
  decode_each (fun _ _ known => known.access) accepted

end WasmLowering
