import ShaderEffect.Text

namespace ShaderEffect.Path

/-- Adds one name to a cleaned list of names, innermost first. Nothing lies above a root. -/
def step (rooted : Bool) (names : List String) (name : String) : List String :=
  if name = "" || name = "." then names
  else if name = ".." then
    match names with
    | [] => if rooted then [] else [".."]
    | last :: outer => if last = ".." then ".." :: names else outer
  else name :: names

/-- The shortest path that names the same place, without looking at any files. -/
def clean (path : String) : String :=
  let rooted := Text.startsWith "/" path
  let names := ((Text.split '/' path).foldl (step rooted) []).reverse
  let body := Text.join "/" names
  if rooted then "/" ++ body else if body = "" then "." else body

/-- The paths joined by slashes, leading empty ones left out. -/
def join (parts : List String) : String :=
  match parts.dropWhile (· = "") with
  | [] => ""
  | rest => clean (Text.join "/" rest)

/-- The text behind the last slash. -/
def lastName (path : String) : String :=
  String.ofList (path.toList.reverse.takeWhile (· ≠ '/')).reverse

/-- The directory a path lies in. -/
def dir (path : String) : String :=
  clean (String.ofList (path.toList.take (path.length - (lastName path).length)))

/-- The last name of a path. -/
def base (path : String) : String :=
  if path = "" then "."
  else
    let trimmed := String.ofList (path.toList.reverse.dropWhile (· = '/')).reverse
    if trimmed = "" then "/" else lastName trimmed

/-- The end of the last name from its last point on, empty if it has none. -/
def ext (path : String) : String :=
  let name := (lastName path).toList.reverse
  if name.contains '.' then String.ofList (name.takeWhile (· ≠ '.') ++ ['.']).reverse else ""

end ShaderEffect.Path
