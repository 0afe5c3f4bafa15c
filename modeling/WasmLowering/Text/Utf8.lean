/-! Text and its bytes in UTF-8. Bytes that are no text can be shown as well. -/

namespace WasmLowering.Text

def bytes (text : String) : List UInt8 := text.toByteArray.data.toList

theorem bytes_ofList (chars : List Char) :
    bytes (String.ofList chars) = chars.flatMap String.utf8EncodeChar := by
  simp [bytes, List.utf8Encode]

theorem bytes_injective : Function.Injective bytes := by
  intro first second equal
  apply String.toByteArray_inj.mp
  exact ByteArray.ext (Array.toList_inj.mp equal)

def replacement : Char := '\ufffd'

/-- The characters that bytes encode. A byte that does not start one is replaced,
and reading goes on behind it. No character has more than four bytes. -/
def chars (bytes : List UInt8) : List Char :=
  match bytes with
  | [] => []
  | first :: rest =>
      match (first :: rest.take 3).toByteArray.utf8DecodeChar? 0 with
      | some char => char :: chars (rest.drop (char.utf8Size - 1))
      | none => replacement :: chars rest
termination_by bytes.length
decreasing_by all_goals simp; try omega

def ofBytes (bytes : List UInt8) : String := String.ofList (chars bytes)

example : ofBytes (bytes "a\u00e9") = "a\u00e9" := by cbv
example : ofBytes [0xE6, 0x97, 0x41] = "\ufffd\ufffdA" := by cbv

end WasmLowering.Text
