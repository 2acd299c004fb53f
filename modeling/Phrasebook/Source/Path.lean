import Phrasebook.Text.Blank

/-!
Slash-separated paths, handled as text: nothing here looks at a file system.
-/
namespace Phrasebook.Path

def isAbsolute (p : String) : Bool :=
  p.toList.head? == some '/'

/-- The names between slashes, empty ones included. -/
def parts (p : String) : List String :=
  (Text.splitAt '/' p.toList).map String.ofList

/-- Resolves one name against the reversed names before it. -/
def step (rooted : Bool) (done : List String) (name : String) : List String :=
  if name = "" || name = "." then done
  else if name = ".." then
    match done with
    | [] => if rooted then [] else [".."]
    | top :: below => if top = ".." then ".." :: done else below
  else name :: done

/-- The names of a path once `.` and `..` are resolved as far as the text allows. -/
def names (p : String) : List String :=
  ((parts p).foldl (step (isAbsolute p)) []).reverse

def ofNames (rooted : Bool) (ns : List String) : String :=
  let body := Text.join "/" ns
  if rooted then "/" ++ body else if ns.isEmpty then "." else body

/-- The shortest path that means the same. -/
def clean (p : String) : String :=
  ofNames (isAbsolute p) (names p)

/-- Joins the non-empty paths; all empty gives the empty path. -/
def join (ps : List String) : String :=
  match ps.filter (· ≠ "") with
  | [] => ""
  | qs => clean (Text.join "/" qs)

/-- The path seen from the directory `cwd`. -/
def absolute (cwd p : String) : String :=
  if isAbsolute p then clean p else join [cwd, p]

/-- The path that leads from `base` to `target`. There is none if only one of them is absolute or
`base` climbs out of what both share. -/
def relative? (base target : String) : Option String :=
  let b := clean base
  let t := clean target
  if b = t then some "."
  else
    let bn := names b
    let tn := names t
    if isAbsolute b ≠ isAbsolute t then none
    else
      let shared := ((bn.zip tn).takeWhile fun (x, y) => x == y).length
      let up := bn.drop shared
      if up.contains ".." then none
      else
        let out := up.map (fun _ => "..") ++ tn.drop shared
        some (if out.isEmpty then "." else Text.join "/" out)

/-- The last name of a path. -/
def base (p : String) : String :=
  if p = "" then "."
  else
    match Text.trimRight (· == '/') p.toList with
    | [] => "/"
    | cs => String.ofList (cs.reverse.takeWhile (· != '/')).reverse

/-- Everything up to the last slash, cleaned. -/
def dir (p : String) : String :=
  clean (String.ofList (p.toList.reverse.dropWhile (· != '/')).reverse)

/-- The last name from its last dot on, if it has one. -/
def extension (p : String) : String :=
  let name := (p.toList.reverse.takeWhile (· != '/')).reverse
  if name.contains '.' then String.ofList ('.' :: (name.reverse.takeWhile (· != '.')).reverse)
  else ""

/-- Whether a relative path leaves the directory that it starts from. -/
def leaves (p : String) : Bool :=
  p == ".." || "../".isPrefixOf p

end Phrasebook.Path
