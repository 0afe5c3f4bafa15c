/-! Slash-separated file paths: their last element, their directory and how two
of them join. Everything here looks at the text only. -/

namespace WasmLowering.Text.Path

def normalizeStep (rooted : Bool) (kept : List String) (element : String) : List String :=
  if element = "" || element = "." then kept
  else if element = ".." then
    match kept with
    | [] => if rooted then [] else [".."]
    | ".." :: _ => ".." :: kept
    | _ :: rest => rest
  else element :: kept

def elements (path : String) : List String :=
  ((path.splitOn "/").foldl (normalizeStep (path.startsWith "/")) []).reverse

def clean (path : String) : String :=
  let joined := "/".intercalate (elements path)
  if path.startsWith "/" then "/" ++ joined
  else if joined = "" then "."
  else joined

def join (parts : List String) : String :=
  match parts.dropWhile (· = "") with
  | [] => ""
  | rest => clean ("/".intercalate rest)

def base (path : String) : String :=
  if path = "" then "."
  else
    let stripped := (path.toList.reverse.dropWhile (· = '/')).takeWhile (· ≠ '/')
    if stripped.isEmpty then "/" else String.ofList stripped.reverse

def directory (path : String) : String :=
  clean (String.ofList (path.toList.reverse.dropWhile (· ≠ '/')).reverse)

def withoutExtension (element : String) : String :=
  match element.toList.reverse.dropWhile (· ≠ '.') with
  | [] => element
  | _ :: front => String.ofList front.reverse

def stem (path : String) : String :=
  withoutExtension (base path)

end WasmLowering.Text.Path
