import FileStyle.Proofs.Outcome
import FileStyle.Resolve
import Mathlib.Data.List.Basic

/-!
# The root as a barrier

The search for style files ends at the first that calls itself the root. Nothing above it
is read, and nothing beside the way to it: two trees that agree on the candidates up to the
root give a path the same properties and the same style, or the same error. Whether a style
file is a root is known only when all of it has been read, for a later line may take back
what an earlier one says.
-/

namespace FileStyle

/-! ## The last line about the root -/

def Line.root? : Line → Option Bool
  | .pair key value =>
      if key = "root" then some (Text.lowercase value.toList = "true".toList) else none
  | _ => none

namespace StyleSheet

theorem root_addLine (sheet : StyleSheet) (number : Nat) (line : Line) :
    (sheet.addLine number line).root = line.root?.getD sheet.root := by
  cases line with
  | ignored => rfl
  | header name => rfl
  | pair key value =>
      by_cases hkey : key = "root"
      · rw [addLine, if_pos hkey, Line.root?, if_pos hkey, Option.getD_some]
      · rw [addLine, if_neg hkey, Line.root?, if_neg hkey, Option.getD_none]
        split
        · rfl
        · rfl

def rootLines (number : Nat) : List (List Char) → List Bool
  | [] => []
  | raw :: rest =>
      ((Line.read (lineText number raw)).toOption.bind Line.root?).toList ++
        rootLines (number + 1) rest

theorem root_of_addLines {sheet result : StyleSheet} {number : Nat} {lines : List (List Char)}
    (h : sheet.addLines number lines = .ok result) :
    result.root = (rootLines number lines).getLastD sheet.root := by
  induction lines generalizing sheet number with
  | nil =>
      cases h
      rfl
  | cons raw lines ih =>
      unfold addLines at h
      split at h
      · cases h
      · next line hline =>
          rw [ih h, root_addLine, rootLines, hline, Except.toOption, Option.bind_some]
          cases line.root? with
          | none => rfl
          | some said =>
              show _ = (said :: rootLines (number + 1) lines).getLastD sheet.root
              rw [List.getLastD_cons]
              rfl

theorem root_of_parse {text : List Char} {sheet : StyleSheet} (h : parse text = .ok sheet) :
    sheet.root = (rootLines 1 (Text.lines text)).getLastD false := by
  rcases map_eq_ok_iff.mp h with ⟨held, hheld, rfl⟩
  exact root_of_addLines hheld

end StyleSheet

/-! ## The search up to the root -/

def Path.candidates (target : Path) (fileName : String) : List Path :=
  target.parents.map (·.append (Path.ofText fileName))

namespace Tree

def contents? (t : Tree) (cwd : Location) (p : Path) : Option Contents :=
  (t.openFile cwd p).toOption

def HoldsRoot (t : Tree) (cwd : Location) (p : Path) : Prop :=
  ∃ bytes file, t.contents? cwd p = some (.bytes bytes) ∧ StyleFile.read p bytes = .ok file ∧
    file.sheet.root = true

/-- Two trees hold the same file at a path, or one that may not be read, or none. -/
def AgreeAt (t : Tree) (cwd : Location) (t' : Tree) (cwd' : Location) (p : Path) : Prop :=
  t.contents? cwd p = t'.contents? cwd' p

variable {t t' : Tree} {cwd cwd' : Location}

theorem gatherStyleFiles_cons (t : Tree) (cwd : Location) (candidate : Path)
    (rest : List Path) :
    t.gatherStyleFiles cwd (candidate :: rest) =
      (t.contents? cwd candidate).elim (t.gatherStyleFiles cwd rest) fun contents => do
        let file ← StyleFile.readContents candidate contents
        if file.sheet.root then
          return [file]
        else
          return file :: (← t.gatherStyleFiles cwd rest) := by
  rw [gatherStyleFiles, contents?]
  cases t.openFile cwd candidate with
  | error fault => rfl
  | ok contents => rfl

theorem gatherStyleFiles_congr {candidates : List Path}
    (h : ∀ p ∈ candidates, t.AgreeAt cwd t' cwd' p) :
    t.gatherStyleFiles cwd candidates = t'.gatherStyleFiles cwd' candidates := by
  induction candidates with
  | nil => rfl
  | cons candidate candidates ih =>
      have hall := List.forall_mem_cons.mp h
      have hfirst : t.contents? cwd candidate = t'.contents? cwd' candidate := hall.left
      rw [gatherStyleFiles_cons, gatherStyleFiles_cons, hfirst, ih hall.right]

theorem gatherStyleFiles_of_holdsRoot {barrier : Path} (h : t.HoldsRoot cwd barrier)
    (nearer farther : List Path) :
    t.gatherStyleFiles cwd (nearer ++ barrier :: farther) =
      t.gatherStyleFiles cwd (nearer ++ [barrier]) := by
  induction nearer with
  | nil =>
      rcases h with ⟨bytes, file, hbytes, hfile, hroot⟩
      have hends : ∀ rest, t.gatherStyleFiles cwd (barrier :: rest) = .ok [file] := by
        intro rest
        rw [gatherStyleFiles_cons, hbytes, Option.elim_some, StyleFile.readContents, hfile]
        show (if file.sheet.root then _ else _) = _
        rw [if_pos hroot]
        rfl
      rw [List.nil_append, List.nil_append, hends, hends]
  | cons candidate nearer ih =>
      rw [List.cons_append, List.cons_append, gatherStyleFiles_cons, gatherStyleFiles_cons, ih]

theorem HoldsRoot.of_agreeAt {barrier : Path} (h : t.HoldsRoot cwd barrier)
    (hagree : t.AgreeAt cwd t' cwd' barrier) : t'.HoldsRoot cwd' barrier := by
  rcases h with ⟨bytes, file, hbytes, hfile⟩
  exact ⟨bytes, file, hagree.symm.trans hbytes, hfile⟩

theorem styleFiles_eq_of_holdsRoot {target barrier : Path} {fileName : String}
    {nearer farther : List Path}
    (hcandidates : target.candidates fileName = nearer ++ barrier :: farther)
    (hroot : t.HoldsRoot cwd barrier)
    (hagree : ∀ p ∈ nearer ++ [barrier], t.AgreeAt cwd t' cwd' p) :
    t.styleFiles cwd target fileName = t'.styleFiles cwd' target fileName := by
  have hbarrier : t.AgreeAt cwd t' cwd' barrier := hagree barrier (by simp)
  calc
    t.styleFiles cwd target fileName =
        t.gatherStyleFiles cwd (nearer ++ barrier :: farther) :=
      congrArg (t.gatherStyleFiles cwd) hcandidates
    _ = t.gatherStyleFiles cwd (nearer ++ [barrier]) :=
      gatherStyleFiles_of_holdsRoot hroot nearer farther
    _ = t'.gatherStyleFiles cwd' (nearer ++ [barrier]) := gatherStyleFiles_congr hagree
    _ = t'.gatherStyleFiles cwd' (nearer ++ barrier :: farther) :=
      (gatherStyleFiles_of_holdsRoot (hroot.of_agreeAt hbarrier) nearer farther).symm
    _ = t'.styleFiles cwd' target fileName :=
      (congrArg (t'.gatherStyleFiles cwd') hcandidates).symm

/-- In two trees in which a path leads to the same target and which agree on the candidates
up to a root, the path has the same properties and the same style, or the same error. -/
theorem style_eq_of_holdsRoot {path target barrier : Path} {fileName : String}
    {nearer farther : List Path} (htarget : t.canonical cwd path = .ok target)
    (htarget' : t'.canonical cwd' path = .ok target)
    (hcandidates : target.candidates fileName = nearer ++ barrier :: farther)
    (hroot : t.HoldsRoot cwd barrier)
    (hagree : ∀ p ∈ nearer ++ [barrier], t.AgreeAt cwd t' cwd' p) :
    t.properties cwd path fileName = t'.properties cwd' path fileName ∧
      t.style cwd path fileName = t'.style cwd' path fileName := by
  have hfiles : t.styleFiles cwd target fileName = t'.styleFiles cwd' target fileName :=
    styleFiles_eq_of_holdsRoot hcandidates hroot hagree
  have hproperties : t.properties cwd path fileName = t'.properties cwd' path fileName := by
    rw [properties, properties, htarget, htarget']
    show (t.styleFiles cwd target fileName >>= _) = (t'.styleFiles cwd' target fileName >>= _)
    rw [hfiles]
  constructor
  · exact hproperties
  · rw [style, style, hproperties]

/-- A path with two style files above it. The farther one first denies to be the root and
then, in a section, calls itself the root. -/
def walled : List (Location × Entry) :=
  [(["p"], .directory), (["p", "s"], .directory), (["p", "s", "a.py"], .file []),
    (["p", "s", ".editorconfig"], .file "[a.*]\ntab_width=3".toUTF8.toList),
    (["p", ".editorconfig"],
      .file "root=false\n[*]\nroot=True\ncharset=utf-8".toUTF8.toList)]

/-- Above the root is a style file that is not UTF-8 in the one tree and none in the other,
which has a malformed style file in a directory beside. -/
theorem style_eq_of_holdsRoot_of_walled :
    Tree.properties ⟨walled ++ [([".editorconfig"], .file [255])]⟩ []
        ⟨.root, ["p", "s", "a.py"]⟩ ".editorconfig" =
      Tree.properties
        ⟨walled ++ [(["q"], .directory), (["q", ".editorconfig"], .file [91])]⟩ []
        ⟨.root, ["p", "s", "a.py"]⟩ ".editorconfig" ∧
    Tree.style ⟨walled ++ [([".editorconfig"], .file [255])]⟩ []
        ⟨.root, ["p", "s", "a.py"]⟩ ".editorconfig" =
      Tree.style
        ⟨walled ++ [(["q"], .directory), (["q", ".editorconfig"], .file [91])]⟩ []
        ⟨.root, ["p", "s", "a.py"]⟩ ".editorconfig" := by
  have hcandidates : Path.candidates ⟨.root, ["p", "s", "a.py"]⟩ ".editorconfig" =
      [⟨.root, ["p", "s", ".editorconfig"]⟩] ++
        ⟨.root, ["p", ".editorconfig"]⟩ :: [⟨.root, [".editorconfig"]⟩] := by
    decide
  have hroot : HoldsRoot ⟨walled ++ [([".editorconfig"], .file [255])]⟩ []
      ⟨.root, ["p", ".editorconfig"]⟩ := by
    refine ⟨"root=false\n[*]\nroot=True\ncharset=utf-8".toUTF8.toList,
      ⟨⟨.root, ["p", ".editorconfig"]⟩, true, [⟨"*", 2, [("charset", "utf-8")]⟩]⟩, ?_, ?_, rfl⟩
    · decide +kernel
    · decide +kernel
  have hagree : ∀ p ∈ ([⟨.root, ["p", "s", ".editorconfig"]⟩] : List Path) ++
        [⟨.root, ["p", ".editorconfig"]⟩],
      AgreeAt ⟨walled ++ [([".editorconfig"], .file [255])]⟩ []
        ⟨walled ++ [(["q"], .directory), (["q", ".editorconfig"], .file [91])]⟩ [] p := by
    unfold AgreeAt
    decide +kernel
  exact style_eq_of_holdsRoot (by decide +kernel) (by decide +kernel) hcandidates hroot hagree

end Tree
end FileStyle
