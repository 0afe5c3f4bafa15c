import WasmLowering.Binary.Leb128
import WasmLowering.Module

/-! The name section. Names only help to read the output, so a malformed name
section is no error: everything before the first fault counts and the rest is
ignored. -/

namespace WasmLowering.Binary.NameSection

def sigil : String := "$"

def entry : Decoder (Index × String) := do
  let position ← Decoder.u32
  let text ← Decoder.name
  return (position, sigil ++ text)

def entries : (count : Nat) → Reader → List (Index × String) × Option Reader
  | 0, reader => ([], some reader)
  | count + 1, reader =>
      match entry reader with
      | .ok first after =>
          let (others, last) := entries count after
          (first :: others, last)
      | .error _ _ => ([], none)

def distinct : (seen : List String) → List (Index × String) → List (Index × String)
  | _, [] => []
  | seen, (position, name) :: rest =>
      if seen.contains name then distinct seen rest
      else (position, name) :: distinct (name :: seen) rest

def nameMap (reader : Reader) : List (Index × String) × Option Reader :=
  match Decoder.u32 reader with
  | .ok count after =>
      let (found, last) := entries count.toNat after
      (distinct [] found, last)
  | .error _ _ => ([], none)

def nameItems {α : Type} (rename : String → α → α) (items : List α)
    (names : List (Index × String)) : List α :=
  names.foldl (fun items (position, name) => items.modify position.toNat (rename name)) items

/-- Names a parameter or a local of a function. A name that another one has
already is dropped, and so is one for a slot that does not exist. -/
def nameSlot (func : Func) (named : Index × String) : Func :=
  let (position, name) := named
  if func.paramBindings.has name || func.localBindings.has name then func
  else if position.toNat < func.params.length then
    { func with paramBindings := func.paramBindings.put name position }
  else if position.toNat - func.params.length < func.locals.length then
    { func with
      localBindings :=
        func.localBindings.put name (.ofNat (position.toNat - func.params.length)) }
  else func

def nameSlots (module : Module) (position : Index) (names : List (Index × String)) : Module :=
  if position.toNat < module.importCount .func then module
  else
    { module with
      funcs := module.funcs.modify position.toNat fun func => names.foldl nameSlot func }

def wholeMap (reader : Reader) : List (Index × String) × Bool :=
  let (names, last) := nameMap reader
  (names, last.isSome)

/-- Applies name maps for the slots of functions. The flag tells whether they
were read to their end. -/
def slotMaps : (count : Nat) → Reader → Module → Module × Bool
  | 0, _, module => (module, true)
  | count + 1, reader, module =>
      match Decoder.u32 reader with
      | .error _ _ => (module, false)
      | .ok position after =>
          let (names, last) := nameMap after
          let named := nameSlots module position names
          match last with
          | some next => slotMaps count next named
          | none => (named, false)

def subsection (id : UInt8) (reader : Reader) (module : Module) : Module × Bool :=
  match id with
  | 0 =>
      match Decoder.name reader with
      | .ok name _ => ({ module with name }, true)
      | .error _ _ => ({ module with name := "" }, false)
  | 1 =>
      let (names, whole) := wholeMap reader
      ({ module with
         funcs := nameItems (fun name func => { func with name }) module.funcs names }, whole)
  | 2 =>
      match Decoder.u32 reader with
      | .ok count after => slotMaps count.toNat after module
      | .error _ _ => (module, false)
  | 4 =>
      let (names, whole) := wholeMap reader
      ({ module with
         types := nameItems (fun name type => { type with name }) module.types names }, whole)
  | 5 =>
      let (names, whole) := wholeMap reader
      ({ module with
         tables := nameItems (fun name table => { table with name }) module.tables names }, whole)
  | 6 =>
      let (names, whole) := wholeMap reader
      ({ module with
         memories := nameItems (fun name memory => { memory with name }) module.memories names },
        whole)
  | 7 =>
      let (names, whole) := wholeMap reader
      ({ module with
         globals := nameItems (fun name global => { global with name }) module.globals names },
        whole)
  | 11 =>
      let (names, whole) := wholeMap reader
      ({ module with
         tags := nameItems (fun name tag => { tag with name }) module.tags names }, whole)
  | _ => (module, true)

def frame : Decoder (UInt8 × Reader) := do
  let id ← Decoder.byte
  let size ← Decoder.u32
  return (id, ← Decoder.sub size.toNat)

/-- Applies subsections until the end or the first fault. Each takes two bytes at
least, so fuel up to the number of remaining bytes is enough. -/
def subsections : (fuel : Nat) → Reader → Module → Module
  | 0, _, module => module
  | fuel + 1, reader, module =>
      match frame reader with
      | .error _ _ => module
      | .ok (id, contents) after =>
          let (named, goesOn) := subsection id contents module
          if goesOn then subsections fuel after named else named

def apply (reader : Reader) (module : Module) : Module :=
  subsections reader.remaining reader module

end WasmLowering.Binary.NameSection
