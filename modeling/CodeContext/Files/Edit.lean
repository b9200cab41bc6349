import CodeContext.Files.Tree

/-!
# Changes to a file tree

Files, links and directories are put into a tree and removed from it. Directories on the way are made
as needed. A change that is not possible gives nothing.
-/

namespace CodeContext

namespace Entry

/-- Changes the entry at the end of a list of names. The change gets the old entry, if there is one,
and gives the new one, or nothing to take the entry away. -/
def update (change : Option Entry → Option Entry) : List String → Entry → Option Entry
  | [], e => change (some e)
  | [name], .directory entries =>
    match change (entries.lookup name) with
    | some e => some (.directory (putEntry name e entries))
    | none => some (.directory (entries.filter fun e => e.1 != name))
  | name :: more, .directory entries =>
    match entries.lookup name with
    | none => none
    | some e => (update change more e).map fun e => .directory (putEntry name e entries)
  | _ :: _, _ => none

end Entry

namespace FileTree

/-- Puts an entry at a canonical path. -/
def set (t : FileTree) (names : List String) (e : Entry) : Option FileTree :=
  (t.root.update (fun _ => some e) names).map fun root => { t with root }

/-- The canonical path of a directory, made if it is not there, and the tree with it. -/
def makeFrom (t : FileTree) (here : List String) : List String → Option (FileTree × List String)
  | [] => some (t, here)
  | piece :: rest =>
    match resolveFrom t.root linkLimit here [piece, ""] with
    | .ok there => makeFrom t there rest
    | .error .notFound =>
      match t.root.at? here with
      | some (.directory entries) =>
        if (entries.lookup piece).isSome then none
        else
          match t.set (here ++ [piece]) (.directory []) with
          | none => none
          | some t => makeFrom t (here ++ [piece]) rest
      | _ => none
    | .error _ => none

/-- Makes a directory and those on the way to it. -/
def makeDirectory (t : FileTree) (path : String) : Option FileTree :=
  if path = "" then none
  else
    (t.makeFrom (if Path.isAbsolute path then [] else t.workingDirectory) (Path.pieces path)).map
      Prod.fst

/-- The directory and the last name of a path, the directory made if it is not there. -/
def openParent (t : FileTree) (path : String) : Option (FileTree × List String × String) :=
  match (Path.pieces path).getLast? with
  | none => none
  | some name =>
    if name = "" || name = "." || name = ".." then none
    else
      (t.makeFrom (if Path.isAbsolute path then [] else t.workingDirectory)
          (Path.pieces path).dropLast).map fun (t, here) => (t, here, name)

/-- Writes a file. A link is followed to the file that it leads to. -/
def writeFile (t : FileTree) (path : String) (content : ByteArray) : Option FileTree :=
  match t.openParent path with
  | none => none
  | some (t, here, name) =>
    match t.root.at? (here ++ [name]) with
    | some (.directory _) => none
    | some (.link _) =>
      match resolveFrom t.root linkLimit here [name] with
      | .ok there =>
        if (t.root.at? there).any Entry.isFile then t.set there (.file content) else none
      | .error _ => none
    | _ => t.set (here ++ [name]) (.file content)

/-- Makes a link, where nothing has the name yet. -/
def makeLink (t : FileTree) (path target : String) : Option FileTree :=
  match t.openParent path with
  | none => none
  | some (t, here, name) =>
    if target = "" || (t.root.at? (here ++ [name])).isSome then none
    else t.set (here ++ [name]) (.link target)

/-- Removes a file, a link, or a directory with all that it holds. -/
def remove (t : FileTree) (path : String) : Option FileTree :=
  match (Path.pieces path).getLast? with
  | none => none
  | some name =>
    if name = "" || name = "." || name = ".." then none
    else
      let start := if Path.isAbsolute path then [] else t.workingDirectory
      match resolveFrom t.root linkLimit start (Path.pieces path).dropLast with
      | .error _ => none
      | .ok here =>
        if (t.root.at? (here ++ [name])).isNone then none
        else (t.root.update (fun _ => none) (here ++ [name])).map fun root => { t with root }

end FileTree

end CodeContext
