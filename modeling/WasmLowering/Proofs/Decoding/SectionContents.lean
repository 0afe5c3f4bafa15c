import WasmLowering.Proofs.Decoding.Assembly
import WasmLowering.Proofs.Decoding.ExportNames
import WasmLowering.Proofs.Results

/-! What is known of the contents of a module, section by section.

Imports bring entities of the kinds they say, functions are declared by entries of the
type section, exports are bound to their positions, and code and constant expressions
are grounded in the types. -/

namespace WasmLowering.Binary

open Decoder (Imported)
open Instr (GroundedBody ConstantBody)

/-! ## Imported entities -/

namespace Decoder.Imported

def unnamed : Imported → Imported
  | .func entity => .func entity.unnamed
  | .table entity => .table { entity with name := "" }
  | .memory entity => .memory { entity with name := "" }
  | .global entity => .global { entity with name := "" }
  | .tag entity => .tag { entity with name := "" }

theorem Fresh.unnamed_eq {types : List FuncType} {imported : Imported}
    (fresh : imported.Fresh types) : imported.unnamed = imported := by
  cases imported with
  | func entity =>
      rcases fresh with ⟨declaration, _, rfl⟩
      rfl
  | global entity =>
      rcases entity with ⟨name, type, isMutable, initial⟩
      rcases fresh with ⟨rfl, _⟩
      rfl
  | table entity | memory entity | tag entity =>
      cases entity
      cases fresh
      rfl

end Decoder.Imported

def importedOf (entries : List (Import × Imported)) (kind : ExternKind) : List Imported :=
  (entries.filter (·.1.kind = kind)).map (·.2)

/-! ## Single sections -/

namespace Decoder

theorem Yields.consumed {α : Type} {decoder : Decoder α} {post : α → Prop}
    (given : decoder.Yields post) {bytes : List UInt8} {value : α}
    (consumed : decoder.Consumes bytes value) : post value :=
  given _ _ _ (consumed 0)

/-- Bindings get the names that are read, each with its position, and keep the others. -/
theorem exportEntries_bound (count number : Nat) (bindings : Bindings) :
    (exportEntries count number bindings).Yields fun result =>
      result.1.length = count ∧ ∀ name position, result.2.find? name = some position ↔
        (∃ place entry, result.1[place]? = some entry ∧ entry.name = name ∧
          position = .ofNat (number + place)) ∨ bindings.find? name = some position := by
  induction count generalizing number bindings with
  | zero => exact .pure ⟨rfl, by simp⟩
  | succ count induction =>
      refine .bind (exportEntry_known bindings) fun first ⟨_, unbound⟩ => ?_
      refine .bind (induction _ _) fun result ⟨isLength, bound⟩ => .pure ⟨?_, ?_⟩
      · exact congrArg (· + 1) isLength
      · intro name position
        rw [bound, Bindings.find?_put]
        constructor
        · rintro (⟨place, entry, isEntry, isName, isPosition⟩ | isBound)
          · exact .inl ⟨place + 1, entry, isEntry, isName, by rw [isPosition]; congr 1; omega⟩
          · split at isBound
            · next isName => exact .inl ⟨0, first, rfl, isName, (Option.some.inj isBound).symm⟩
            · exact .inr isBound
        · rintro (⟨place, entry, isEntry, isName, isPosition⟩ | isBound)
          · cases place with
            | zero =>
                cases isEntry
                exact .inr (by rw [if_pos isName, isPosition]; rfl)
            | succ place =>
                exact .inl ⟨place, entry, isEntry, isName, by rw [isPosition]; congr 1; omega⟩
          -- The name of the export was not bound, so this is another one.
          · refine .inr ?_
            rw [if_neg, isBound]
            rintro rfl
            rw [unbound] at isBound
            cases isBound

theorem exports_bound : Yields (do exportEntries (← u32).toNat 0 ∅) fun result =>
    ∀ name position, result.2.find? name = some position ↔
      ∃ entry, result.1[position.toNat]? = some entry ∧ entry.name = name := by
  refine .bind' fun count => (exportEntries_bound _ _ _).mono fun result ⟨isLength, bound⟩ => ?_
  intro name position
  rw [bound, find?_empty, or_iff_left nofun]
  constructor
  · rintro ⟨place, entry, isEntry, isName, rfl⟩
    have small : place < UInt32.size := by
      have inside := (List.getElem?_eq_some_iff.mp isEntry).1
      exact Nat.lt_trans (isLength ▸ inside) count.toNat_lt
    refine ⟨entry, ?_, isName⟩
    rwa [Nat.zero_add, UInt32.toNat_ofNat_of_lt' small]
  · rintro ⟨entry, isEntry, isName⟩
    exact ⟨position.toNat, entry, isEntry, isName, by simp⟩

end Decoder

/-! ## All sections -/

namespace Contents

open Decoder (Yields)

structure Known (contents : Contents) : Prop where
  entries : ∀ entry ∈ contents.entries,
    entry.2.kind = entry.1.kind ∧ entry.2.Fresh contents.types
  funcs : ∀ func ∈ contents.funcs, Imported.Fresh contents.types (.func func)
  bodies : ∀ body ∈ contents.bodies, GroundedBody contents.types body.2
  globals : ∀ global ∈ contents.globals, ConstantBody contents.types global.initial
  bound : ∀ name position, contents.exports.2.find? name = some position ↔
    ∃ entry, contents.exports.1[position.toNat]? = some entry ∧ entry.name = name
  segments : ∀ segment ∈ contents.segments, ∀ kept ∈ segment,
    kept.Grounded contents.types
  datas : ∀ segment ∈ contents.datas, segment.Grounded contents.types

theorem Known.kinds {contents : Contents} (known : contents.Known) :
    ∀ entry ∈ contents.entries, entry.2.kind = entry.1.kind :=
  fun entry member => (known.entries entry member).1

theorem Known.fresh {contents : Contents} (known : contents.Known) (kind : ExternKind) :
    ∀ imported ∈ importedOf contents.entries kind, imported.Fresh contents.types := by
  intro imported member
  rcases List.mem_map.mp member with ⟨entry, isEntry, rfl⟩
  exact (known.entries entry (List.mem_of_mem_filter isEntry)).2

theorem Read.holds {contents : Contents} {frames : List Frame} (read : contents.Read frames)
    (id : SectionId) (notCustom : id ≠ .custom) {post : id.Content → Prop}
    (told : ∀ bytes content, id.Tells contents.types bytes content → post content) :
    ∀ content ∈ contents id, post content := by
  intro content isContent
  rcases read.mem notCustom isContent with ⟨frame, _, _, isTold⟩
  exact told _ _ isTold

theorem forall_mem_getD {α : Type} {given : Option (List α)} {property : α → Prop}
    (all : ∀ items ∈ given, ∀ item ∈ items, property item) :
    ∀ item ∈ given.getD [], property item := by
  cases given with
  | none => exact nofun
  | some items => exact all items rfl

theorem Read.known {contents : Contents} {frames : List Frame} (read : contents.Read frames) :
    contents.Known where
  entries := forall_mem_getD (read.holds .imports (by decide) fun _ _ told =>
    ((Yields.counted (Decoder.importEntry_fresh _)).consumed told).2)
  funcs := forall_mem_getD (read.holds .function (by decide) fun _ _ told =>
    ((Yields.counted fun _ => Decoder.func_fresh _).consumed told).2)
  bodies := by
    refine forall_mem_getD (read.holds .code (by decide) fun _ results told => ?_)
    rcases told with ⟨_, bodies, _, _, each⟩
    intro result member
    rcases exists_of_forall₂ each member with ⟨body, _, consumed⟩
    exact ((Decoder.funcBody_known _).consumed consumed).grounded
  globals := forall_mem_getD (read.holds .global (by decide) fun _ _ told =>
    ((Yields.counted (Decoder.globalEntry_constant _)).consumed told).2)
  bound := by
    have told := read.holds .exports (by decide) fun _ _ told => Decoder.exports_bound.consumed told
    unfold exports
    cases isContent : contents .exports with
    | none => simp [Decoder.find?_empty]
    | some content => exact told content isContent
  segments := forall_mem_getD (read.holds .element (by decide) fun _ _ told =>
    ((Yields.counted fun _ => (Decoder.elementSegment_grounded _).locate _).consumed told).2)
  datas := forall_mem_getD (read.holds .data (by decide) fun _ _ told =>
    ((Yields.counted (Decoder.dataSegment_grounded _)).consumed told).2)

end Contents

end WasmLowering.Binary
