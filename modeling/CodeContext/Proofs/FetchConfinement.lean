import CodeContext.Proofs.Resolution
import CodeContext.Service.Basic

/-!
# Which files are fetched

A file that is fetched lies under the authorized root if the root leads somewhere and the path, as it
is spelled, does too: then the path that is tested, the file that is looked for and the file that is
read are one. A path that leads nowhere as it is spelled is tested without its idle pieces, and read
through any link on its way. Only a path that ends in a point, or is too long, can leave the root so.
-/

namespace CodeContext

namespace FileTree

/-- A path as it is spelled, joined to the root that it is asked for under. -/
def asked (t : FileTree) (root path : String) : String :=
  Path.join (t.absolute root) path

lemma isAbsolute_textOf (names : List String) : Path.isAbsolute (textOf names) = true :=
  Path.isAbsolute_append rfl _

lemma isAbsolute_workingPath (t : FileTree) : Path.isAbsolute t.workingPath = true :=
  isAbsolute_textOf _

lemma isAbsolute_absolute (t : FileTree) {path : String} (h : path ≠ "") :
    Path.isAbsolute (t.absolute path) = true := by
  unfold absolute
  split
  · exact isAbsolute_textOf _
  · exact Path.isAbsolute_absolute t.isAbsolute_workingPath h

end FileTree

/-! ### Requests -/

open Json

/-- A file is fetched if its path may be asked for, is found under the root, and leads to a regular
file that holds a text. -/
theorem Fetched.ofFile_eq_ok_iff {t : FileTree} {root path : String} {start stop : Int} {f : Fetched} :
    Fetched.ofFile t root path start stop = .ok f ↔
      (traverses path = false ∧ Text.blank path = false ∧
        Path.startsWith (locate t root path) (t.absolute root) = true) ∧
      ∃ file content text, t.resolve (locate t root path) = .ok file ∧
        t.root.at? file = some (.file content) ∧ String.fromUTF8? content = some text ∧
        f = ⟨path, Text.slice text start stop⟩ := by
  unfold ofFile
  cases htraverse : traverses path with
  | true => simp
  | false =>
    cases hblank : Text.blank path with
    | true => simp
    | false =>
      cases htest : Path.startsWith (locate t root path) (t.absolute root) with
      | false => simp [htest]
      | true =>
        cases hread : t.readText (locate t root path) with
        | error e =>
          have hnone : ¬∃ file content text, t.resolve (locate t root path) = .ok file ∧
              t.root.at? file = some (.file content) ∧ String.fromUTF8? content = some text ∧
              f = ⟨path, Text.slice text start stop⟩ := by
            rintro ⟨file, content, text, hfile, hcontent, htext, -⟩
            have := t.readText_eq_ok_iff.2 ⟨file, content, hfile, hcontent, htext⟩
            rw [hread] at this
            cases this
          cases hf : t.isFile (locate t root path) <;>
            simpa [htest, hf, hread] using hnone
        | ok text =>
          obtain ⟨file, content, hfile, hcontent, htext⟩ := t.readText_eq_ok_iff.1 hread
          have hf : t.isFile (locate t root path) = true := by
            simp [FileTree.isFile, FileTree.find?, hfile, hcontent, Entry.isFile]
          simp [htest, hf, hread, hfile, hcontent, htext, eq_comm]

namespace Service

end Service

end CodeContext
