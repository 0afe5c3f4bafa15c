import WasmLowering.Proofs.Decoding.Indexed

/-! Decoded modules do not export a name twice. -/

namespace WasmLowering

def Module.DistinctExports (module : Module) : Prop := (module.exports.map (·.name)).Nodup

namespace Binary.Decoder

theorem exportEntries_distinct (count number : Nat) (bindings : Bindings) :
    (exportEntries count number bindings).Yields fun result =>
      (result.1.map (·.name)).Nodup ∧
        ∀ entry ∈ result.1, bindings.find? entry.name = none := by
  induction count generalizing number bindings with
  | zero => exact .pure ⟨List.nodup_nil, nofun⟩
  | succ count induction =>
      refine .bind (exportEntry_known bindings) fun entry ⟨_, unbound⟩ => ?_
      refine .bind (induction _ _) fun result ⟨nodup, later⟩ => .pure ?_
      have apart : ∀ other ∈ result.1, entry.name ≠ other.name ∧
          bindings.find? other.name = none := by
        intro other member
        have free := later other member
        rw [Bindings.find?_put] at free
        split at free
        · cases free
        · next different => exact ⟨different, free⟩
      constructor
      · apply List.nodup_cons.mpr ⟨?_, nodup⟩
        intro member
        rcases List.mem_map.mp member with ⟨other, isOther, same⟩
        exact (apart other isOther).1 same.symm
      · intro other member
        rcases List.mem_cons.mp member with rfl | member
        · exact unbound
        · exact (apart other member).2

theorem sectionContents_distinctExports : Kept Module.DistinctExports := by
  intro id progress distinct
  cases id with
  | custom =>
      refine .bind' fun title => ?_
      split
      · refine .bind' fun reader => .pure ?_
        rw [Module.DistinctExports, (NameSection.apply_sameContents reader progress.module).exports]
        exact distinct
      · exact .pure distinct
  | exports =>
      refine .bind' fun count => .bind (exportEntries_distinct _ _ _) fun result known => ?_
      exact .pure known.1
  | code =>
      refine .bind' fun count => ?_
      dsimp only
      split
      · exact .throw _ _
      · exact .bind' fun bodies => .pure distinct
  | _ => exact .bind' fun items => .pure distinct

end Binary.Decoder

theorem Binary.decode_distinctExports {bytes : List UInt8} {module : Module}
    (accepted : decode bytes = .ok module) : module.DistinctExports :=
  decode_keeps List.nodup_nil Decoder.sectionContents_distinctExports accepted

end WasmLowering
