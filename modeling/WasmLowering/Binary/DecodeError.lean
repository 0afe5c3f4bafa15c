import WasmLowering.Failure
import WasmLowering.Opcode

/-! Why bytes are not a module, and where in them. -/

namespace WasmLowering.Binary

inductive Place where
  /-- A section, named by its contents. -/
  | sectionOf (name : String)
  /-- A part of the input, with the position that reading had reached. -/
  | part (name : String) (position : Nat)
  /-- An instruction, with the position that reading had reached. -/
  | instruction (position : Nat)
  | global (number : Nat)
  | segment (number : Nat)
  | element (number : Nat)
  deriving DecidableEq, Repr

inductive DecodeError where
  -- bytes
  | endOfData
  | overflow (position : Nat)
  | invalidName (position : Nat)
  -- framing
  | badMagic
  | badVersion
  | sectionOrder (id : UInt8)
  | unknownSection (id : UInt8)
  | trailingBytes (count : Nat)
  | bodyCount (bodies functions : Nat)
  | missingBodies (functions bodies : Nat)
  -- types and entities
  | valueType (byte : UInt8)
  | notReference (type : ValueType)
  | outOfBounds (what : String) (index length : Nat)
  | limitFlags (flags : UInt8)
  | memory64
  | typeForm (byte : UInt8)
  | mutability (byte : UInt8)
  | tagAttribute (byte : UInt8)
  | importKind (number : Nat) (moduleName fieldName : String) (kind : UInt8)
  | exportKind (name : String) (kind : UInt8)
  | duplicateExport (name : String)
  | segmentFlags (flags : Nat)
  | elementKind (byte : UInt8)
  | elementExpression
  -- code
  | tooManyLocals (count : Nat)
  | functionEnd (terminator : Opcode)
  | bytesAfterEnd (count : Nat)
  | constantEnd (terminator : Opcode)
  | notConstant (opcode : Opcode)
  | delegate
  | wrongEnd (construct : String) (terminator : Opcode)
  | alignment (exponent : Nat)
  | unknownOpcode (byte : UInt8)
  | unknownMisc (number : Nat)
  | selectTypes (count : Nat)
  /-- Any of these at some place. -/
  | within (place : Place) (cause : DecodeError)
  deriving Repr, Inhabited

def maxLocals : Nat := 50000

def Place.text : Place → String
  | sectionOf name => name ++ " section"
  | part name position =>
      "wasm: " ++ (if name = "" then "" else name ++ " ") ++ "at position " ++ toString position
  | instruction position => "offset " ++ toString position
  | global number => "global " ++ toString number
  | segment number => "segment " ++ toString number
  | element number => "element " ++ toString number

namespace DecodeError

def byteText (byte : UInt8) : String := "0x" ++ Text.hex 2 byte.toNat

def toFailure : DecodeError → Failure
  | endOfData => .plain "unexpected end of data"
  | overflow position =>
      .within ("at position " ++ toString position) (.plain "leb128: overflow")
  | invalidName position =>
      .within ("at position " ++ toString position) (.plain "invalid UTF-8 in name")
  | badMagic => .plain "invalid wasm magic number"
  | badVersion => .plain "invalid wasm version"
  | sectionOrder id => .plain ("section " ++ toString id.toNat ++ " appears out of order")
  | unknownSection id => .plain ("unknown section ID: " ++ byteText id)
  | trailingBytes count => .plain (toString count ++ " trailing bytes")
  | bodyCount bodies functions =>
      .plain (toString bodies ++ " bodies for " ++ toString functions ++ " functions")
  | missingBodies functions bodies =>
      .plain ("function and code section have inconsistent lengths: " ++
        toString functions ++ " vs " ++ toString bodies)
  | valueType byte => .plain ("unsupported value type " ++ byteText byte)
  | notReference type => .plain ("expected reference type, got " ++ type.name)
  | outOfBounds what index length => .outOfBounds .decode [what] index length
  | limitFlags flags => .plain ("invalid limits flags " ++ byteText flags)
  | memory64 => .unsupported .decode "memory64"
  | typeForm byte => .unsupported .decode ("type form " ++ byteText byte)
  | mutability byte => .plain ("invalid mutability " ++ byteText byte)
  | tagAttribute byte => .plain ("invalid tag attribute " ++ byteText byte)
  | importKind number moduleName fieldName kind =>
      .plain ("import " ++ toString number ++ " (" ++ moduleName ++ "." ++ fieldName ++
        "): invalid kind " ++ byteText kind)
  | exportKind name kind =>
      .plain ("export " ++ Text.quoted name ++ ": invalid kind " ++ byteText kind)
  | duplicateExport name =>
      .invalidData .decode ["export"] ("duplicate export " ++ Text.quoted name)
  | segmentFlags flags => .plain ("invalid flags " ++ toString flags)
  | elementKind byte => .plain ("invalid element kind " ++ byteText byte)
  | elementExpression => .unsupported .decode "element expression other than ref.func"
  | tooManyLocals count =>
      .report .decode .overflow []
        ("too many locals (" ++ toString count ++ ", limit " ++ toString maxLocals ++ ")") none
  | functionEnd terminator => .plain ("unexpected " ++ terminator.name ++ " at function level")
  | bytesAfterEnd count => .plain (toString count ++ " bytes after function end")
  | constantEnd terminator =>
      .plain ("unexpected " ++ terminator.name ++ " in constant expression")
  | notConstant opcode => .plain (opcode.name ++ " not allowed in constant expression")
  | delegate => .unsupported .decode "delegate"
  | wrongEnd construct terminator =>
      .plain (construct ++ " terminated by " ++ terminator.name)
  | alignment exponent =>
      .plain ("alignment exponent " ++ toString exponent ++ " too large")
  | unknownOpcode byte => .plain ("unknown opcode " ++ byteText byte)
  | unknownMisc number => .plain ("unknown 0xFC subopcode " ++ toString number)
  | selectTypes count => .plain ("typed select with " ++ toString count ++ " types")
  | within place cause => .within place.text cause.toFailure

def toReport (error : DecodeError) : Failure :=
  let cause := error.toFailure
  let kind := if cause.hasKind .unsupported then Kind.unsupported else .invalidData
  .wrap .decode kind "decode module" (some cause)

end DecodeError

end WasmLowering.Binary
