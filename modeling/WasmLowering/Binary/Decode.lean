import WasmLowering.Binary.NameSection
import WasmLowering.Binary.Sections

/-! Binary modules: a header and then sections, each with its size. Sections other
than custom ones come at most once and in a fixed order. -/

namespace WasmLowering.Binary

def magic : UInt32 := 0x6D736100

def version : UInt32 := 1

inductive SectionId where
  | custom
  | type
  | imports
  | function
  | table
  | memory
  | tag
  | global
  | exports
  | start
  | element
  | dataCount
  | code
  | data
  deriving DecidableEq, Repr, Inhabited

namespace SectionId

def ofByte? : UInt8 → Option SectionId
  | 0 => some custom
  | 1 => some type
  | 2 => some imports
  | 3 => some function
  | 4 => some table
  | 5 => some memory
  | 6 => some global
  | 7 => some exports
  | 8 => some start
  | 9 => some element
  | 10 => some code
  | 11 => some data
  | 12 => some dataCount
  | 13 => some tag
  | _ => none

def name : SectionId → String
  | custom => "custom"
  | type => "type"
  | imports => "import"
  | function => "function"
  | table => "table"
  | memory => "memory"
  | tag => "tag"
  | global => "global"
  | exports => "export"
  | start => "start"
  | element => "element"
  | dataCount => "data count"
  | code => "code"
  | data => "data"

def order (id : SectionId) : Nat := id.ctorIdx

end SectionId

structure Progress where
  module : Module := {}
  /-- The order of the last section that was not custom. -/
  order : Nat := 0
  /-- The number of functions in the function section. -/
  declared : Nat := 0
  /-- The number of bodies in the code section. -/
  bodies : Nat := 0

namespace Module

def addImports (module : Module) (entries : List (Import × Decoder.Imported)) : Module :=
  { module with
    imports := entries.map (·.1)
    funcs := module.funcs ++ entries.filterMap fun entry =>
      match entry.2 with | .func func => some func | _ => none
    tables := module.tables ++ entries.filterMap fun entry =>
      match entry.2 with | .table table => some table | _ => none
    memories := module.memories ++ entries.filterMap fun entry =>
      match entry.2 with | .memory memory => some memory | _ => none
    globals := module.globals ++ entries.filterMap fun entry =>
      match entry.2 with | .global global => some global | _ => none
    tags := module.tags ++ entries.filterMap fun entry =>
      match entry.2 with | .tag tag => some tag | _ => none }

def addBodies (module : Module) (first : Nat) (bodies : List (List ValueType × List Instr)) :
    Module :=
  let defined := (module.funcs.drop first).zipWith
    (fun func (locals, body) => { func with locals := func.locals ++ locals, body }) bodies
  { module with funcs := module.funcs.take first ++ defined }

end Module

namespace Decoder

def sectionContents (id : SectionId) (progress : Progress) : Decoder Progress := do
  let module := progress.module
  match id with
  | .custom =>
      let title ← name
      if title = "name" then
        return { progress with module := NameSection.apply (← get) module }
      else return progress
  | .type =>
      return { progress with module := { module with types := ← counted fun _ => typeEntry } }
  | .imports =>
      let entries ← counted (importEntry module.types)
      return { progress with module := Module.addImports module entries }
  | .function =>
      let funcs ← counted fun _ => func module.types
      return { progress with
        module := { module with funcs := module.funcs ++ funcs }
        declared := funcs.length }
  | .table =>
      let tables ← counted fun _ => table
      return { progress with module := { module with tables := module.tables ++ tables } }
  | .memory =>
      let memories ← counted fun _ => memory
      return { progress with module := { module with memories := module.memories ++ memories } }
  | .tag =>
      let tags ← counted fun _ => tag module.types
      return { progress with module := { module with tags := module.tags ++ tags } }
  | .global =>
      let globals ← counted (globalEntry module.types)
      return { progress with module := { module with globals := module.globals ++ globals } }
  | .exports =>
      let count ← u32
      let (exports, exportBindings) ← exportEntries count.toNat 0 module.exportBindings
      return { progress with module := { module with exports, exportBindings } }
  | .start =>
      let position ← u32
      return { progress with module := { module with starts := [.index position] } }
  | .element =>
      let segments ← counted fun number =>
        locate (.segment number) (elementSegment module.types)
      let elements := segments.filterMap fun segment => segment
      return { progress with module := { module with elements } }
  | .dataCount =>
      let _ ← u32
      return progress
  | .code =>
      let count ← u32
      if count.toNat ≠ progress.declared then
        throw (.bodyCount count.toNat progress.declared)
      let first := module.importCount .func
      let bodies ← repeated (sizedBody module.types) count.toNat first
      return { progress with module := Module.addBodies module first bodies, bodies := count.toNat }
  | .data =>
      let datas ← counted (dataSegment module.types)
      return { progress with module := { module with datas } }

def sectionBody (id : SectionId) (contents : Reader) (progress : Progress) : Decoder Progress := do
  let (after, left) ← inside contents (locate (.sectionOf id.name) (sectionContents id progress))
  if id ≠ .custom && !left.atEnd then
    throw (.within (.part id.name left.position) (.trailingBytes left.remaining))
  return after

/-- Reads one section. A section out of order is refused before its size is read,
an unknown one after that. -/
def sectionStep (progress : Progress) : Decoder Progress := do
  let first ← byte
  let progress ←
    match SectionId.ofByte? first with
    | some .custom => pure progress
    | some id =>
        if id.order ≤ progress.order then throw (.sectionOrder first)
        else pure { progress with order := id.order }
    | none => pure progress
  let size ← locateBy (fun reader => .part "section size" reader.position) u32
  let contents ← locateBy (fun reader => .part "section data" reader.position) (sub size.toNat)
  match SectionId.ofByte? first with
  | some id => sectionBody id contents progress
  | none => throw (.unknownSection first)

/-- Reads sections to the end. Each takes two bytes at least, so fuel up to the
number of remaining bytes is enough. -/
def sections : (fuel : Nat) → Progress → Decoder Progress
  | 0, progress => pure progress
  | fuel + 1, progress => do
      if ← atEnd then return progress
      sections fuel (← sectionStep progress)

def headerWord : Decoder UInt32 :=
  locateBy (fun reader => .part "header" reader.position) word32

def module : Decoder Module := do
  if (← headerWord) ≠ magic then throw .badMagic
  if (← headerWord) ≠ version then throw .badVersion
  let progress ← sections (← remaining) {}
  if progress.bodies ≠ progress.declared then
    throw (.missingBodies progress.declared progress.bodies)
  return progress.module

end Decoder

def decode (bytes : List UInt8) : Except DecodeError Module :=
  match Decoder.module (Reader.ofBytes bytes) with
  | .ok module _ => .ok module
  | .error error _ => .error error

end WasmLowering.Binary
