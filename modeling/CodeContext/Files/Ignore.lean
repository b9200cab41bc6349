import CodeContext.Files.Glob
import CodeContext.Files.Tree
import CodeContext.Text.Blank
import CodeContext.Text.Input

/-!
# Ignore files

A line of an ignore file is a rule: a glob for names to pass over, or, after an exclamation mark, for
names to keep. A glob with a slash that is not at its end is matched with the whole path from the
directory that the rules hold for, any other with the last name. A slash at the end keeps a rule to
directories. Of the rules of a file that match, the last one counts.

Each directory can have three kinds of ignore files. A verdict of an earlier kind outweighs those of
the later kinds, and within a kind the nearest directory with a verdict counts.
-/

namespace CodeContext

structure IgnoreRule where
  pattern : Pattern
  /-- Whether what matches is kept. -/
  keeps : Bool
  /-- Whether only directories match. -/
  onlyDirectories : Bool

namespace IgnoreRule

/-- Drops the blank characters at the end, unless the last one is an escaped space. -/
def trimEnd (line : List Char) : List Char :=
  match line.reverse with
  | ' ' :: '\\' :: _ => line
  | back => (back.dropWhile Text.isBlank).reverse

/-- How a line begins: whether what it matches is kept, whether its glob is bound to the directory, and
the glob. -/
def splitMarks : List Char → Bool × Bool × List Char
  | '\\' :: '!' :: rest => (false, false, '!' :: rest)
  | '\\' :: '#' :: rest => (false, false, '#' :: rest)
  | '!' :: '/' :: rest => (true, true, rest)
  | '!' :: rest => (true, false, rest)
  | '/' :: rest => (false, true, rest)
  | rest => (false, false, rest)

/-- Whether a glob ends with a slash, and the glob without it and a backslash before it. -/
def splitSlash (glob : List Char) : Bool × List Char :=
  match glob.reverse with
  | '/' :: '\\' :: back => (true, back.reverse)
  | '/' :: back => (true, back.reverse)
  | _ => (false, glob)

/-- The glob that is matched with whole paths. What ends with two stars matches only inside of the
directory before them. -/
def wholeGlob (bound : Bool) (glob : List Char) : List Char :=
  let anywhere := !bound && !glob.contains '/' && glob != ['*', '*']
  let glob := if anywhere then '*' :: '*' :: '/' :: glob else glob
  if ['/', '*', '*'].isSuffixOf glob then glob ++ ['/', '*'] else glob

/-- The rule of a line. Comments, blank lines and what is no glob give none. -/
def ofLine? (line : List Char) : Option IgnoreRule :=
  if line.head? == some '#' then none
  else
    let line := trimEnd line
    if line.isEmpty then none
    else
      let (keeps, bound, glob) := splitMarks line
      let (onlyDirectories, glob) := splitSlash glob
      (Glob.pattern? (wholeGlob bound glob)).map fun pattern =>
        { pattern, keeps, onlyDirectories }

/-- The rules of the lines of a file. Byte order marks at its beginning are passed over. -/
def ofLines : List String → List IgnoreRule
  | [] => []
  | first :: rest =>
    (first.toList.dropWhile (· == '\uFEFF') :: rest.map String.toList).filterMap ofLine?

end IgnoreRule

/-- What is done with a name. -/
inductive Verdict where
  | pass
  | keep
  deriving DecidableEq

namespace IgnoreRule

def applies (r : IgnoreRule) (path : List UInt8) (isDirectory : Bool) : Bool :=
  (!r.onlyDirectories || isDirectory) && r.pattern.accepts path

/-- What the last rule that applies says about a path. -/
def verdict? (rules : List IgnoreRule) (path : List UInt8) (isDirectory : Bool) : Option Verdict :=
  (rules.reverse.find? (·.applies path isDirectory)).map fun r => if r.keeps then .keep else .pass

end IgnoreRule

/-- The rules of one directory. -/
structure IgnoreLayer where
  /-- How many names the directory's canonical path has. -/
  depth : Nat
  /-- The rules of each kind of ignore file, from the kind that counts most. -/
  kinds : List (List IgnoreRule)

namespace IgnoreLayer

/-- The names of ignore files, from the kind that counts most. -/
def fileNames : List (List String) :=
  [[".ignore"], [".gitignore"], [".git", "info", "exclude"]]

/-- The rules of an ignore file. One that cannot be read has none. -/
def rulesAt (t : FileTree) (directory file : List String) : List IgnoreRule :=
  match FileTree.resolveFrom t.root FileTree.linkLimit directory file with
  | .error _ => []
  | .ok names =>
    match t.root.at? names with
    | some (.file content) => IgnoreRule.ofLines (Text.inputLines content)
    | _ => []

/-- The rules of a directory, given by its canonical path. -/
def ofDirectory (t : FileTree) (directory : List String) : IgnoreLayer where
  depth := directory.length
  kinds := fileNames.map (rulesAt t directory)

/-- The layers of the directories above a directory, the nearest first. -/
def above (t : FileTree) : Nat → List String → List IgnoreLayer
  | 0, _ => []
  | n + 1, directory => ofDirectory t (directory.take n) :: above t n directory

/-- The path from a layer's directory, as bytes. -/
def pathFrom (layer : IgnoreLayer) (names : List String) : List UInt8 :=
  (String.intercalate "/" (names.drop layer.depth)).toUTF8.data.toList

/-- What a layer's rules of one kind say about a path. -/
def verdictOf? (layer : IgnoreLayer) (kind : Nat) (names : List String) (isDirectory : Bool) :
    Option Verdict :=
  IgnoreRule.verdict? (layer.kinds.getD kind []) (layer.pathFrom names) isDirectory

/-- What some layers say about a path, the nearest first. -/
def verdict? (layers : List IgnoreLayer) (names : List String) (isDirectory : Bool) : Option Verdict :=
  (List.range fileNames.length).findSome? fun kind =>
    layers.findSome? fun layer => layer.verdictOf? kind names isDirectory

/-- Whether some layers pass over a path. -/
def passesOver (layers : List IgnoreLayer) (names : List String) (isDirectory : Bool) : Bool :=
  verdict? layers names isDirectory == some .pass

end IgnoreLayer

end CodeContext
