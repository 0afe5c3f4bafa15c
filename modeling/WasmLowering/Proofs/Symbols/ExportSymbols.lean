import WasmLowering.Proofs.Symbols.HeaderDeclarations
import WasmLowering.Proofs.Symbols.Identifiers

/-! Exports have symbols of their own.

The symbol of an export starts with its name, and mangled names can be told apart in
whatever stands behind them. No name is exported twice, and the passes over a module
keep the names of its exports. -/

namespace WasmLowering

namespace Symbol

/-! ## Mangled names in a row -/

theorem join_mangle (names : List (List UInt8)) : String.join (names.map mangle) = spell names := by
  induction names with
  | nil => rfl
  | cons name rest induction => rw [List.map_cons, String.join_cons, induction, spell_cons]

theorem all_continue_escape (byte : UInt8) : (escape byte).all continuesIdentifier = true := by
  have all : ∀ byte : UInt8, (escape byte).all continuesIdentifier = true := by decide +kernel
  exact all byte

theorem all_continue_component (name : List UInt8) :
    (component name).all continuesIdentifier = true := by
  have letters : (name.flatMap escape).all continuesIdentifier = true := by
    rw [List.all_flatMap, List.all_eq_true]
    exact fun byte _ => all_continue_escape byte
  rw [component, List.all_cons, List.all_cons, letters]
  rfl

/-- Components make up an identifier, since the first of them starts with a letter. -/
theorem isIdentifier_spell {names : List (List UInt8)} (given : names ≠ []) :
    isIdentifier (spell names) = true := by
  have letters : (names.flatMap component).all continuesIdentifier = true := by
    rw [List.all_flatMap, List.all_eq_true]
    exact fun name _ => all_continue_component name
  cases names with
  | nil => exact absurd rfl given
  | cons name rest =>
      unfold isIdentifier spell
      rw [String.toList_ofList]
      rw [List.flatMap_cons, component, List.cons_append] at letters ⊢
      rw [List.all_cons, Bool.and_eq_true] at letters
      show (startsIdentifier 'Z' && List.all _ continuesIdentifier) = true
      rw [letters.2]
      rfl

theorem spell_not_keyword {names : List (List UInt8)} (given : names ≠ []) :
    spell names ∉ keywords := by
  have different : ∀ keyword ∈ keywords, keyword.toList.head? ≠ some 'Z' := by decide
  intro isKeyword
  apply different _ isKeyword
  cases names with
  | nil => exact absurd rfl given
  | cons name rest => simp [spell, component]

end Symbol

/-! ## Exports -/

namespace Emission

variable {module : Module} {program : C.Program} {after : Stages}

theorem Built.export_of_symbol (built : Built module program after)
    (distinct : module.DistinctExports) {left right : C.ExportedObject}
    (isLeft : left ∈ program.exports) (isRight : right ∈ program.exports)
    (sameSymbol : left.symbol = right.symbol) : left = right := by
  rcases exists_of_forall₂ built.exports_spelled isLeft with ⟨_, _, _, leftSpelled⟩
  rcases exists_of_forall₂ built.exports_spelled isRight with ⟨_, _, _, rightSpelled⟩
  have sameComponents := Symbol.spell_injective
    (leftSpelled.symm.trans (sameSymbol.trans rightSpelled))
  have sameName := Text.bytes_injective (List.cons.inj sameComponents).1
  exact built.export_eq distinct isLeft isRight sameName

theorem Built.exportSymbols_nodup (built : Built module program after)
    (distinct : module.DistinctExports) : (program.exports.map (·.symbol)).Nodup := by
  have nodup : (program.exports.map (·.name)).Nodup := built.exportNames ▸ distinct
  refine List.Nodup.map_on ?_ (List.Nodup.of_map _ nodup)
  intro left isLeft right isRight sameSymbol
  exact built.export_of_symbol distinct isLeft isRight sameSymbol

end Emission

/-- What the passes over a module can make of it, in any order and as often as one likes. -/
inductive Module.Reworked (module : Module) : Module → Prop where
  | asItIs : Reworked module module
  | resolve {between : Module} (reworked : Reworked module between) :
      Reworked module between.resolve
  | applyNames {between named : Module} (reworked : Reworked module between)
      (succeeds : between.applyNames = .ok named) : Reworked module named

theorem Module.Reworked.exportNames {module written : Module} (reworked : module.Reworked written) :
    written.exports.map (·.name) = module.exports.map (·.name) := by
  induction reworked with
  | asItIs => rfl
  | resolve reworked induction => exact induction
  | applyNames reworked succeeds induction =>
      exact (applyNames_applied succeeds).exportNames.trans induction

/-- Mangled names in a row are an identifier that can be taken apart again, so that the exports of
a decoded module have different symbols, whatever they are and whatever was done to it. -/
theorem Module.export_symbols_distinct :
    (∀ names others : List (List UInt8),
      String.join (names.map Symbol.mangle) = String.join (others.map Symbol.mangle) →
        names = others) ∧
    (∀ names : List (List UInt8), names ≠ [] →
      Symbol.isIdentifier (String.join (names.map Symbol.mangle)) = true ∧
        String.join (names.map Symbol.mangle) ∉ Symbol.keywords) ∧
    ∀ (bytes : List UInt8) (module written : Module) (headerName : String) (output : Output),
      Binary.decode bytes = .ok module → module.Reworked written →
        written.write headerName = .ok output →
          ∃ program, written.emit = .ok program ∧ output = program.output headerName ∧
            program.exports.map (·.name) = module.exports.map (·.name) ∧
            (program.exports.map (·.symbol)).Nodup := by
  simp only [Symbol.join_mangle]
  refine ⟨fun names others equal => Symbol.spell_injective equal, fun names given => ?_, ?_⟩
  · exact ⟨Symbol.isIdentifier_spell given, Symbol.spell_not_keyword given⟩
  · intro bytes module written headerName output accepted reworked isWritten
    rcases bind_eq_ok isWritten with ⟨program, emitted, isOutput⟩
    rcases Emission.emit_built emitted with ⟨after, built⟩
    have distinct : written.DistinctExports := by
      rw [DistinctExports, reworked.exportNames]
      exact Binary.decode_distinctExports accepted
    refine ⟨program, emitted, (Except.ok.inj isOutput).symm, ?_, built.exportSymbols_nodup distinct⟩
    exact built.exportNames.trans reworked.exportNames

/-- A module that exports a function `a`, whose letters are `vv`, and a memory `aZ_vv`. -/
def imitatedExport : List UInt8 :=
  [0x00, 0x61, 0x73, 0x6D, 0x01, 0x00, 0x00, 0x00,
    -- The type `[] -> []`, a function of it, a memory, the exports, and the body.
    0x01, 0x04, 0x01, 0x60, 0x00, 0x00, 0x03, 0x02, 0x01, 0x00, 0x05, 0x03, 0x01, 0x00, 0x01,
    0x07, 0x0D, 0x02, 0x01, 0x61, 0x00, 0x00, 0x05, 0x61, 0x5A, 0x5F, 0x76, 0x76, 0x02, 0x00,
    0x0A, 0x04, 0x01, 0x02, 0x00, 0x0B]

theorem Module.export_symbols_distinct_imitated : ∃ module named output program,
    Binary.decode imitatedExport = .ok module ∧ module.resolve.applyNames = .ok named ∧
      named.write "" = .ok output ∧ named.emit = .ok program ∧
      program.exports.map (·.symbol) = ["Z_aZ_vv", "Z_aZ5A_vv"] ∧
      (program.exports.map (·.symbol)).Nodup := by
  rcases exists_of_run (Binary.decode imitatedExport)
      (fun module => module.resolve.applyNames.toOption.bind fun named =>
        named.emit.toOption.map (·.exports.map (·.symbol)))
      (some ["Z_aZ_vv", "Z_aZ5A_vv"]) (by decide +kernel) with ⟨module, accepted, shown⟩
  rcases Option.bind_eq_some_iff.mp shown with ⟨named, isNamed, shown⟩
  rcases exists_of_run named.emit (·.exports.map (·.symbol)) _ shown with
    ⟨program, emitted, symbols⟩
  have written : named.write "" = .ok (program.output "") := by
    rw [Module.write, emitted]
    rfl
  have reworked : module.Reworked named :=
    .applyNames (.resolve .asItIs) (eq_ok_of_toOption isNamed)
  rcases export_symbols_distinct with ⟨_, _, distinct⟩
  rcases distinct _ module named "" _ accepted reworked written with
    ⟨other, emittedOther, _, _, nodup⟩
  cases Except.ok.inj (emitted.symm.trans emittedOther)
  exact ⟨module, named, _, program, accepted, eq_ok_of_toOption isNamed, written, emitted, symbols,
    nodup⟩

end WasmLowering
